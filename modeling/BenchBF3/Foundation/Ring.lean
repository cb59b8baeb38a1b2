import Mathlib.Data.BitVec
import Mathlib.Data.Nat.ModEq

/-! # Rings indexed by running counters

A ring of `size` cells stores the entries of an unbounded sequence: entry
number `n` goes to cell `n % size`. At any time it holds a window of the
sequence that is no longer than the ring. `Window` says what the cells of a
window satisfy; writing the next entry extends it at one end and forgetting the
oldest shortens it at the other. Often the cells are those of a log of what was
written. Hardware counters are 32 bits wide and select a cell with a mask;
`toNat_and_mask` reads them as running counters.
-/

namespace BenchBF3.Foundation

/-- The mask of a ring with `2 ^ depth` cells. -/
def ringMask (depth : Nat) : BitVec 32 := BitVec.ofNat 32 (2 ^ depth - 1)

/-- A masked counter is the running counter modulo the size of the ring, also
when the counter itself has wrapped. -/
theorem toNat_and_mask {width depth : Nat} (hdepth : depth ≤ width) (n : Nat) :
    (BitVec.ofNat width n &&& BitVec.ofNat width (2 ^ depth - 1)).toNat = n % 2 ^ depth := by
  have hlt : 2 ^ depth - 1 < 2 ^ width := by
    have hmono : 2 ^ depth ≤ 2 ^ width := Nat.pow_le_pow_right (by decide) hdepth
    have hpos := Nat.two_pow_pos depth
    omega
  rw [BitVec.toNat_and, BitVec.toNat_ofNat, BitVec.toNat_ofNat, Nat.mod_eq_of_lt hlt,
    Nat.and_two_pow_sub_one_eq_mod]
  exact Nat.mod_mod_of_dvd n (Nat.pow_dvd_pow 2 hdepth)

/-- Two entries less than a whole ring apart are in different cells. -/
theorem mod_ne_of_lt {size first second : Nat} (hlt : first < second)
    (hspan : second < first + size) : first % size ≠ second % size := by
  -- A common cell would put the two a multiple of the size apart.
  intro heq
  have hdvd : size ∣ second - first := (Nat.modEq_iff_dvd' hlt.le).mp heq
  have hle := Nat.le_of_dvd (by omega) hdvd
  omega

/-- The same for a counter that wraps, unless it does so between the two and the
wrap is not a whole number of rings. -/
theorem mod_mod_ne_of_lt {wrap size first second : Nat} (hlt : first < second)
    (hspan : second < first + size) (hwrap : first / wrap = second / wrap ∨ size ∣ wrap) :
    first % wrap % size ≠ second % wrap % size := by
  rcases hwrap with hsame | hdvd
  · have hfirst := Nat.div_add_mod first wrap
    have hsecond := Nat.div_add_mod second wrap
    rw [hsame] at hfirst
    exact mod_ne_of_lt (by omega) (by omega)
  · rw [Nat.mod_mod_of_dvd _ hdvd, Nat.mod_mod_of_dvd _ hdvd]
    exact mod_ne_of_lt hlt hspan

/-- The next entry is in the next cell, or again in the first. -/
theorem succ_mod {size : Nat} (hsize : 1 ≤ size) (n : Nat) :
    (n + 1) % size = 0 ∨ (n + 1) % size = n % size + 1 := by
  have hlt := Nat.mod_lt n hsize
  rw [← Nat.mod_add_mod n size 1]
  rcases Nat.lt_or_eq_of_le (Nat.succ_le_of_lt hlt) with hnext | hlast
  · right
    exact Nat.mod_eq_of_lt hnext
  · left
    change (n % size).succ % size = 0
    rw [hlast, Nat.mod_self]

/-- A count falls on the same cell of two rings exactly when the larger one puts
it among the cells that the smaller one has. -/
theorem mod_pow_eq_iff {small large : Nat} (hle : small ≤ large) (n : Nat) :
    n % 2 ^ small = n % 2 ^ large ↔ n % 2 ^ large < 2 ^ small := by
  constructor
  · intro heq
    rw [← heq]
    exact Nat.mod_lt n (Nat.two_pow_pos small)
  · intro hlt
    rw [← Nat.mod_mod_of_dvd n (Nat.pow_dvd_pow 2 hle), Nat.mod_eq_of_lt hlt]

/-- Every entry of the sequence from `first` up to `last` satisfies a relation
with the cell it belongs to. -/
def Window {α : Type*} (ring : Nat → α) (size : Nat) (holds : Nat → α → Prop)
    (first last : Nat) : Prop :=
  ∀ n, first ≤ n → n < last → holds n (ring (n % size))

/-- The entry is in a log, and the relation holds between it and the cell. -/
def Logged {α β : Type*} (rel : Nat → β → α → Prop) (log : List β) (n : Nat) (cell : α) : Prop :=
  ∃ entry, log[n]? = some entry ∧ rel n entry cell

namespace Window

variable {α : Type*} {ring : Nat → α} {size first last : Nat} {holds holds' : Nat → α → Prop}

theorem empty (ring : Nat → α) (size first : Nat) (holds : Nat → α → Prop) :
    Window ring size holds first first :=
  fun _ hle hlt => absurd hlt (by omega)

theorem mono (hwindow : Window ring size holds first last) {first' last' : Nat}
    (hfirst : first ≤ first') (hlast : last' ≤ last) :
    Window ring size holds first' last' :=
  fun n hle hlt => hwindow n (hfirst.trans hle) (hlt.trans_le hlast)

theorem imp (hwindow : Window ring size holds first last)
    (himp : ∀ n value, first ≤ n → n < last → holds n value → holds' n value) :
    Window ring size holds' first last :=
  fun n hle hlt => himp n _ hle hlt (hwindow n hle hlt)

/-- Only the cells of the ring count. -/
theorem congr (hwindow : Window ring size holds first last) {ring' : Nat → α}
    (hring : ∀ n, ring' (n % size) = ring (n % size)) :
    Window ring' size holds first last := by
  intro n hle hlt
  rw [hring]
  exact hwindow n hle hlt

/-- The next entry goes to its own cell when the window is not yet a whole ring. -/
theorem push (hwindow : Window ring size holds first last) {value : α}
    (hspan : last < first + size) (hvalue : holds last value) :
    Window (Function.update ring (last % size) value) size holds first (last + 1) := by
  intro n hle hlt
  rcases Nat.lt_succ_iff_lt_or_eq.mp hlt with hbefore | rfl
  · rw [Function.update_of_ne (mod_ne_of_lt hbefore (by omega))]
    exact hwindow n hle hbefore
  · rw [Function.update_self]
    exact hvalue

/-- Rewriting the cell of one entry of a window that is at most a whole ring;
the relation may change with it, at that entry. -/
theorem update_mem (hwindow : Window ring size holds first last) {target : Nat} {value : α}
    (hspan : last ≤ first + size) (hfirst : first ≤ target) (hlast : target < last)
    (hvalue : holds' target value)
    (hother : ∀ n value, n ≠ target → holds n value → holds' n value) :
    Window (Function.update ring (target % size) value) size holds' first last := by
  intro n hle hlt
  rcases Nat.lt_trichotomy n target with hbefore | rfl | hafter
  · rw [Function.update_of_ne (mod_ne_of_lt hbefore (by omega))]
    exact hother n _ hbefore.ne (hwindow n hle hlt)
  · rw [Function.update_self]
    exact hvalue
  · rw [Function.update_of_ne (mod_ne_of_lt hafter (by omega)).symm]
    exact hother n _ hafter.ne' (hwindow n hle hlt)

section Log

variable {β : Type*} {rel : Nat → β → α → Prop} {log : List β}

/-- A log that grows keeps its entries. -/
theorem extend (hwindow : Window ring size (Logged rel log) first last)
    (hlast : last ≤ log.length) (entry : β) :
    Window ring size (Logged rel (log ++ [entry])) first last := by
  refine hwindow.imp ?_
  intro n value _ hlt hlogged
  rwa [Logged, List.getElem?_append_left (hlt.trans_le hlast)]

/-- The next entry is appended to the log and written to its cell. -/
theorem record (hwindow : Window ring size (Logged rel log) first log.length)
    (hspan : log.length < first + size) {entry : β} {value : α}
    (hvalue : rel log.length entry value) :
    Window (Function.update ring (log.length % size) value) size (Logged rel (log ++ [entry]))
      first (log.length + 1) :=
  (hwindow.extend le_rfl entry).push hspan ⟨entry, by simp, hvalue⟩

end Log

end Window

end BenchBF3.Foundation
