import Mathlib.Logic.Basic
import Mathlib.Order.Basic

/-! # Scans for a sentinel

A scan reads one position after the other and folds what it reads, until it reads a
sentinel. Nothing else ends it, so it is run for some number of rounds. A scan ends within
a number of positions exactly when one of them holds the sentinel.
-/

namespace BenchBF3.Foundation

variable {α : Type*}

/-- The positions read so far, and what they were folded to. -/
structure Scan (α : Type*) where
  read : Nat
  acc : α
  ended : Bool

namespace Scan

variable (stop : Nat → Prop) [DecidablePred stop] (fold : α → Nat → α)

def step (scan : Scan α) : Scan α :=
  if scan.ended then scan
  else if stop scan.read then { scan with read := scan.read + 1, ended := true }
  else { scan with read := scan.read + 1, acc := fold scan.acc scan.read }

/-- The scan after some rounds; those after its end do nothing. -/
def run (start : α) : Nat → Scan α
  | 0 => { read := 0, acc := start, ended := false }
  | count + 1 => (run start count).step stop fold

/-- The last position read is the first one with the sentinel, or there was none so far. -/
def ReadUpTo (scan : Scan α) (count : Nat) : Prop :=
  if scan.ended then ∃ last, scan.read = last + 1 ∧ stop last ∧ ∀ position < last, ¬ stop position
  else scan.read = count ∧ ∀ position < count, ¬ stop position

variable {stop fold}

theorem ReadUpTo.step {scan : Scan α} {count : Nat} (hread : scan.ReadUpTo stop count) :
    (scan.step stop fold).ReadUpTo stop (count + 1) := by
  unfold Scan.step
  split
  next hended =>
    rw [ReadUpTo, if_pos hended] at hread ⊢
    exact hread
  next hrunning =>
    rw [ReadUpTo, if_neg hrunning] at hread
    obtain ⟨hcount, hnone⟩ := hread
    split
    next hstop =>
      rw [hcount] at hstop
      exact ⟨count, congrArg (· + 1) hcount, hstop, hnone⟩
    next hstop =>
      rw [hcount] at hstop
      rw [ReadUpTo, if_neg hrunning]
      refine ⟨congrArg (· + 1) hcount, ?_⟩
      intro position hposition
      rcases Nat.lt_succ_iff_lt_or_eq.mp hposition with hlt | rfl
      · exact hnone position hlt
      · exact hstop

theorem run_readUpTo (start : α) (count : Nat) :
    (run stop fold start count).ReadUpTo stop count := by
  induction count with
  | zero => exact ⟨rfl, fun _ hposition => absurd hposition (Nat.not_lt_zero _)⟩
  | succ count ih => exact ih.step

theorem run_invariant {Inv : α → Prop} {start : α} (hstart : Inv start)
    (hfold : ∀ acc position, Inv acc → Inv (fold acc position)) (count : Nat) :
    Inv (run stop fold start count).acc := by
  induction count with
  | zero => exact hstart
  | succ count ih =>
      rw [run, step]
      split
      next => exact ih
      next =>
        split
        next => exact ih
        next => exact hfold _ _ ih

/-- A scan ends within a limit exactly when the sentinel is there. -/
theorem exists_ended_iff (start : α) (limit : Nat) :
    (∃ count, (run stop fold start count).ended = true ∧
        (run stop fold start count).read ≤ limit) ↔
      ∃ position < limit, stop position := by
  constructor
  · rintro ⟨count, hended, hlimit⟩
    have hread : (run stop fold start count).ReadUpTo stop count := run_readUpTo start count
    rw [ReadUpTo, if_pos hended] at hread
    obtain ⟨last, hlast, hstop, -⟩ := hread
    exact ⟨last, by omega, hstop⟩
  · rintro ⟨position, hposition, hstop⟩
    have hread : (run stop fold start (position + 1)).ReadUpTo stop (position + 1) :=
      run_readUpTo start (position + 1)
    have hended : (run stop fold start (position + 1)).ended = true := by
      by_contra hrunning
      rw [ReadUpTo, if_neg hrunning] at hread
      exact hread.2 position (Nat.lt_succ_self position) hstop
    rw [ReadUpTo, if_pos hended] at hread
    obtain ⟨last, hlast, -, hnone⟩ := hread
    have hle : last ≤ position := Nat.le_of_not_lt fun hlt => hnone position hlt hstop
    exact ⟨position + 1, hended, by omega⟩

end Scan

end BenchBF3.Foundation
