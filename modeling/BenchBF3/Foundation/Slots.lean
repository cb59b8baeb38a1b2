import Mathlib.Data.BitVec
import Mathlib.Data.Finset.Card
import Mathlib.Data.List.Nodup
import Mathlib.Logic.Function.Basic
import BenchBF3.Foundation.Ring

/-! # A table of slots for work in flight

Work is put into the slot that a running count selects and leaves its slot when it is
finished, in any order. The count of issued and that of finished work are kept in 64
bits. As long as work is only put into free slots, the difference of the two counts is
the number of occupied slots, also after the counts have wrapped. Whether the slots to
come are free is another matter, since work leaves in any order.
-/

namespace BenchBF3.Foundation

structure SlotWindow (α : Type*) where
  issued : BitVec 64
  finished : BitVec 64
  slots : Nat → Option α
  /-- What is in flight, with its slots, oldest first. -/
  pending : List (Nat × α)

namespace SlotWindow

variable {α : Type*}

def empty : SlotWindow α := ⟨0, 0, fun _ => none, []⟩

/-- The slot that the count of issued work selects. -/
def place (window : SlotWindow α) (size : Nat) : Nat := window.issued.toNat % size

/-- The counts' difference, the number of works in flight. -/
def inFlight (window : SlotWindow α) : BitVec 64 := window.issued - window.finished

def issue (window : SlotWindow α) (size : Nat) (work : α) : SlotWindow α where
  issued := window.issued + 1
  finished := window.finished
  slots := Function.update window.slots (window.place size) (some work)
  pending := window.pending ++ [(window.place size, work)]

/-- A work leaves; the others of the list stay in flight. -/
def release (window : SlotWindow α) (slot : Nat) (rest : List (Nat × α)) : SlotWindow α where
  issued := window.issued
  finished := window.finished + 1
  slots := Function.update window.slots slot none
  pending := rest

def occupied (window : SlotWindow α) (size : Nat) : Finset Nat :=
  (Finset.range size).filter fun slot => (window.slots slot).isSome

/-- The slot that the count selects after some further works. -/
def ahead (window : SlotWindow α) (size offset : Nat) : Nat :=
  (window.issued + BitVec.ofNat 64 offset).toNat % size

/-- The next works all find a free slot, without coming back to one of theirs. -/
def FreeAhead (window : SlotWindow α) (size count : Nat) : Prop :=
  ∀ offset < count, window.slots (window.ahead size offset) = none ∧
    ∀ earlier < offset, window.ahead size earlier ≠ window.ahead size offset

/-- Every work in flight is in a slot of its own, and nothing else is in the slots. -/
structure Valid (size : Nat) (window : SlotWindow α) : Prop where
  slot_lt : ∀ entry ∈ window.pending, entry.1 < size
  nodup : (window.pending.map Prod.fst).Nodup
  slots_eq_some : ∀ slot work, window.slots slot = some work ↔ (slot, work) ∈ window.pending
  inFlight : window.inFlight.toNat = window.pending.length

section Ahead

variable {size : Nat} {window : SlotWindow α}

theorem ahead_zero (window : SlotWindow α) (size : Nat) :
    window.ahead size 0 = window.place size := by
  simp [ahead, place]

theorem ahead_issue (work : α) (offset : Nat) :
    (window.issue size work).ahead size offset = window.ahead size (offset + 1) := by
  unfold ahead
  rw [Nat.add_comm, BitVec.ofNat_add, ← BitVec.add_assoc]
  rfl

/-- The first of the next works, and those after it. -/
theorem freeAhead_succ {count : Nat} (work : α) : window.FreeAhead size (count + 1) ↔
    window.slots (window.place size) = none ∧ (window.issue size work).FreeAhead size count := by
  simp only [FreeAhead, ahead_issue]
  constructor
  · intro hfree
    refine ⟨window.ahead_zero size ▸ (hfree 0 (Nat.succ_pos _)).1, ?_⟩
    intro offset hoffset
    obtain ⟨hnone, hdistinct⟩ := hfree (offset + 1) (Nat.succ_lt_succ hoffset)
    refine ⟨?_, fun earlier hearlier => hdistinct (earlier + 1) (Nat.succ_lt_succ hearlier)⟩
    have hother := hdistinct 0 (Nat.succ_pos _)
    rw [ahead_zero] at hother
    exact (Function.update_of_ne hother.symm _ _).trans hnone
  · rintro ⟨hfirst, hrest⟩ offset hoffset
    cases offset with
    | zero => exact ⟨window.ahead_zero size ▸ hfirst, nofun⟩
    | succ offset =>
        obtain ⟨hnone, hdistinct⟩ := hrest offset (Nat.lt_of_succ_lt_succ hoffset)
        have hother : window.ahead size (offset + 1) ≠ window.place size := by
          intro hequal
          rw [hequal] at hnone
          exact absurd ((Function.update_self ..).symm.trans hnone) nofun
        refine ⟨(Function.update_of_ne hother _ _).symm.trans hnone, ?_⟩
        intro earlier hearlier
        cases earlier with
        | zero => exact window.ahead_zero size ▸ hother.symm
        | succ earlier => exact hdistinct earlier (Nat.lt_of_succ_lt_succ hearlier)

end Ahead

section Valid

variable {size : Nat} {window : SlotWindow α}

theorem empty_valid (size : Nat) : (empty : SlotWindow α).Valid size :=
  ⟨nofun, .nil, by simp [empty], by simp [empty, SlotWindow.inFlight]⟩

theorem place_lt (window : SlotWindow α) (hsize : 1 ≤ size) : window.place size < size :=
  Nat.mod_lt _ hsize

theorem Valid.occupied_eq (hvalid : window.Valid size) :
    window.occupied size = (window.pending.map Prod.fst).toFinset := by
  ext slot
  simp only [occupied, Finset.mem_filter, Finset.mem_range, List.mem_toFinset, List.mem_map]
  constructor
  · rintro ⟨-, hsome⟩
    obtain ⟨work, hwork⟩ := Option.isSome_iff_exists.mp hsome
    exact ⟨_, (hvalid.slots_eq_some slot work).mp hwork, rfl⟩
  · rintro ⟨⟨_, work⟩, hentry, rfl⟩
    exact ⟨hvalid.slot_lt _ hentry,
      Option.isSome_iff_exists.mpr ⟨work, (hvalid.slots_eq_some _ work).mpr hentry⟩⟩

/-- The difference of the counts is the number of occupied slots. -/
theorem Valid.card_occupied (hvalid : window.Valid size) :
    (window.occupied size).card = window.inFlight.toNat := by
  rw [hvalid.occupied_eq, List.toFinset_card_of_nodup hvalid.nodup, List.length_map,
    hvalid.inFlight]

theorem Valid.pending_le (hvalid : window.Valid size) : window.pending.length ≤ size := by
  rw [← hvalid.inFlight, ← hvalid.card_occupied]
  exact (Finset.card_filter_le _ _).trans_eq (Finset.card_range size)

theorem Valid.isNone_iff (hvalid : window.Valid size) (slot : Nat) :
    window.slots slot = none ↔ slot ∉ window.pending.map Prod.fst := by
  rw [Option.eq_none_iff_forall_not_mem, List.mem_map]
  constructor
  · rintro hnone ⟨⟨_, work⟩, hentry, rfl⟩
    exact hnone work ((hvalid.slots_eq_some _ work).mpr hentry)
  · intro hnot work hwork
    exact hnot ⟨_, (hvalid.slots_eq_some slot work).mp hwork, rfl⟩

/-- The next slot is not that of a work in flight, when it is free. -/
theorem ne_place_of_some {slot : Nat} {work : α} (hfree : window.slots (window.place size) = none)
    (hslot : window.slots slot = some work) : slot ≠ window.place size := by
  rintro rfl
  exact absurd (hfree.symm.trans hslot) nofun

/-- What stays when a work leaves was in flight. -/
theorem mem_pending_of_rest {before after : List (Nat × α)} {entry other : Nat × α}
    (hpending : window.pending = before ++ entry :: after) (hother : other ∈ before ++ after) :
    other ∈ window.pending := by
  rw [hpending]
  exact ((List.sublist_cons_self _ _).append_left _).mem hother

theorem toNat_inFlight_issue (window : SlotWindow α) (size : Nat) (work : α)
    (hroom : window.inFlight.toNat + 1 < 2 ^ 64) :
    (window.issue size work).inFlight.toNat = window.inFlight.toNat + 1 := by
  have hmove : (window.issue size work).inFlight = window.inFlight + 1 :=
    BitVec.add_sub_comm
  rw [hmove, BitVec.toNat_add]
  exact Nat.mod_eq_of_lt hroom

theorem toNat_inFlight_release (window : SlotWindow α) {slot : Nat} {rest : List (Nat × α)}
    (hsome : 1 ≤ window.inFlight.toNat) :
    (window.release slot rest).inFlight.toNat = window.inFlight.toNat - 1 := by
  have hmove : (window.release slot rest).inFlight = window.inFlight - 1 :=
    (sub_sub _ _ _).symm
  rw [hmove, BitVec.toNat_sub_of_le (by rwa [BitVec.le_def])]
  rfl

/-- Work is put into a free slot. -/
theorem Valid.issue (hvalid : window.Valid size) (hsize : 1 ≤ size) (hrange : size < 2 ^ 64)
    (hroom : window.inFlight.toNat < size) (hfree : window.slots (window.place size) = none)
    (work : α) : (window.issue size work).Valid size where
  slot_lt := by
    intro entry hentry
    rcases List.mem_append.mp hentry with hold | hnew
    · exact hvalid.slot_lt entry hold
    · rw [List.mem_singleton.mp hnew]
      exact window.place_lt hsize
  nodup := by
    have hnot := (hvalid.isNone_iff _).mp hfree
    change ((window.pending ++ _).map Prod.fst).Nodup
    rw [List.map_append]
    exact hvalid.nodup.append (List.nodup_singleton _) (by simpa using hnot)
  slots_eq_some := by
    intro slot other
    change Function.update window.slots (window.place size) (some work) slot = some other ↔
      (slot, other) ∈ window.pending ++ [(window.place size, work)]
    rw [List.mem_append, List.mem_singleton, Prod.mk.injEq, ← hvalid.slots_eq_some]
    by_cases hslot : slot = window.place size
    · subst slot
      simp [hfree, eq_comm]
    · simp [hslot]
  inFlight := by
    rw [window.toNat_inFlight_issue size work (by omega), hvalid.inFlight]
    simp [SlotWindow.issue]

/-- Any work in flight may be the next to leave. -/
theorem Valid.release (hvalid : window.Valid size) {before after : List (Nat × α)} {slot : Nat}
    {work : α} (hpending : window.pending = before ++ (slot, work) :: after) :
    (window.release slot (before ++ after)).Valid size := by
  have hnodup := hvalid.nodup
  rw [hpending, List.map_append, List.map_cons, List.nodup_middle, List.nodup_cons,
    ← List.map_append] at hnodup
  refine ⟨?_, hnodup.2, ?_, ?_⟩
  · intro entry hentry
    exact hvalid.slot_lt entry (mem_pending_of_rest hpending hentry)
  · intro place other
    change Function.update window.slots slot none place = some other ↔
      (place, other) ∈ before ++ after
    by_cases hplace : place = slot
    · subst place
      -- The work that leaves was the only one in its slot.
      simp only [Function.update_self, reduceCtorEq, false_iff]
      exact fun hother => hnodup.1 (List.mem_map.mpr ⟨_, hother, rfl⟩)
    · rw [Function.update_of_ne hplace, hvalid.slots_eq_some, hpending]
      simp [hplace]
  · have hlength : window.pending.length = before.length + after.length + 1 := by
      simp [hpending, Nat.add_assoc]
    rw [window.toNat_inFlight_release (by rw [hvalid.inFlight]; omega), hvalid.inFlight, hlength]
    simp [SlotWindow.release]

end Valid

/-! ## Work that leaves in order -/

/-- The works in flight have consecutive numbers, each in the slot of its number. -/
def InOrder (size : Nat) (window : SlotWindow α) : Prop :=
  ∃ first, window.finished = BitVec.ofNat 64 first ∧
    window.issued = BitVec.ofNat 64 (first + window.pending.length) ∧
    window.pending.map Prod.fst =
      (List.range' first window.pending.length).map fun number => number % 2 ^ 64 % size

section InOrder

variable {size : Nat} {window : SlotWindow α}

theorem empty_inOrder (size : Nat) : (empty : SlotWindow α).InOrder size := ⟨0, rfl, rfl, rfl⟩

theorem InOrder.issue (horder : window.InOrder size) (work : α) :
    (window.issue size work).InOrder size := by
  obtain ⟨first, hfinished, hissued, hslots⟩ := horder
  refine ⟨first, hfinished, ?_, ?_⟩
  · change window.issued + 1 = BitVec.ofNat 64 (first + (window.pending ++ [_]).length)
    rw [hissued, List.length_append, List.length_singleton, ← Nat.add_assoc,
      BitVec.ofNat_add _ 1]
    rfl
  · simp only [SlotWindow.issue, List.map_append, List.length_append, List.length_singleton,
      List.range'_concat, hslots, place, hissued]
    simp

/-- The oldest work leaves. -/
theorem InOrder.release (horder : window.InOrder size) {slot : Nat} {work : α}
    {rest : List (Nat × α)} (hpending : window.pending = (slot, work) :: rest) :
    (window.release slot rest).InOrder size := by
  obtain ⟨first, hfinished, hissued, hslots⟩ := horder
  rw [hpending] at hissued hslots
  refine ⟨first + 1, ?_, ?_, ?_⟩
  · simp only [SlotWindow.release, hfinished, BitVec.ofNat_add]
    rfl
  · simp only [SlotWindow.release, hissued, List.length_cons]
    congr 1
    omega
  · rw [List.length_cons, List.range'_succ, List.map_cons, List.map_cons] at hslots
    exact (List.cons.inj hslots).2

/-- All slots ahead are free, if a wrap of the count is a whole number of rounds. -/
theorem Valid.freeAhead_of_inOrder (hvalid : window.Valid size) (hdvd : size ∣ 2 ^ 64)
    (horder : window.InOrder size) :
    window.FreeAhead size (size - window.inFlight.toNat) := by
  obtain ⟨first, -, hissued, hslots⟩ := horder
  have hahead : ∀ offset, window.ahead size offset =
      (first + window.pending.length + offset) % 2 ^ 64 % size := by
    intro offset
    rw [ahead, hissued, ← BitVec.ofNat_add, BitVec.toNat_ofNat]
  intro offset hoffset
  rw [hvalid.inFlight] at hoffset
  constructor
  · rw [hvalid.isNone_iff, hahead, hslots, List.mem_map]
    rintro ⟨number, hnumber, hequal⟩
    rw [List.mem_range'_1] at hnumber
    exact mod_mod_ne_of_lt (by omega) (by omega) (.inr hdvd) hequal
  · intro earlier hearlier
    rw [hahead, hahead]
    exact mod_mod_ne_of_lt (by omega) (by omega) (.inr hdvd)

end InOrder

end SlotWindow

end BenchBF3.Foundation
