import Mathlib.Data.List.Basic

/-! # Streams over a lossless FIFO

A producer puts items into a FIFO and ends the stream with one closing packet;
a consumer takes packets from the front. `InTransit` relates the contents of
the FIFO to the items in it, for a stream that is open, closed by the producer,
or ended at the consumer. Items are taken in the order in which they were put,
and the closing packet is found only when every item has been taken.
-/

namespace BenchBF3.Foundation

inductive Packet (α : Type*)
  | item (value : α)
  | close
  deriving DecidableEq, Repr

/-- The packets in a FIFO that holds some items, by whether the producer has
closed the stream and whether the consumer has seen its end. -/
inductive InTransit {α : Type*} : Bool → Bool → List (Packet α) → List α → Prop
  | opened (items : List α) : InTransit false false (items.map .item) items
  | closed (items : List α) : InTransit true false (items.map .item ++ [.close]) items
  | ended : InTransit true true [] []

namespace InTransit

variable {α : Type*} {closed ended : Bool} {fifo rest : List (Packet α)} {items : List α}
  {value : α}

theorem put (hfifo : InTransit false ended fifo items) (value : α) :
    InTransit false ended (fifo ++ [.item value]) (items ++ [value]) := by
  cases hfifo with
  | opened =>
      have hopened := InTransit.opened (items ++ [value])
      rwa [List.map_append] at hopened

theorem close (hfifo : InTransit false ended fifo items) :
    InTransit true ended (fifo ++ [.close]) items := by
  cases hfifo with
  | opened => exact .closed items

/-- The item in front is the oldest one. -/
theorem take (hfifo : InTransit closed ended (.item value :: rest) items) :
    ∃ later, items = value :: later ∧ InTransit closed ended rest later := by
  generalize hpackets : Packet.item value :: rest = packets at hfifo
  cases hfifo with
  | opened =>
      cases items with
      | nil => cases hpackets
      | cons first later =>
          obtain ⟨hfirst, rfl⟩ := List.cons.inj hpackets
          cases hfirst
          exact ⟨later, rfl, .opened later⟩
  | closed =>
      cases items with
      | nil => cases hpackets
      | cons first later =>
          obtain ⟨hfirst, rfl⟩ := List.cons.inj hpackets
          cases hfirst
          exact ⟨later, rfl, .closed later⟩
  | ended => cases hpackets

/-- When the closing packet is in front, nothing else is in the FIFO. -/
theorem takeClose (hfifo : InTransit closed ended (.close :: rest) items) :
    closed = true ∧ items = [] ∧ InTransit closed true rest [] := by
  generalize hpackets : Packet.close :: rest = packets at hfifo
  cases hfifo with
  | opened => cases items <;> cases hpackets
  | closed =>
      cases items with
      | nil =>
          obtain ⟨-, rfl⟩ := List.cons.inj hpackets
          exact ⟨rfl, rfl, .ended⟩
      | cons first later => cases hpackets
  | ended => cases hpackets

/-- No item is left at the end. -/
theorem items_of_ended (hfifo : InTransit closed true fifo items) : items = [] := by
  cases hfifo
  rfl

end InTransit

end BenchBF3.Foundation
