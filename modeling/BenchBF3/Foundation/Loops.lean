import Mathlib.Algebra.BigOperators.Group.Finset.Piecewise

/-! # Counting loops

A loop that counts from zero is a fold over the first numbers. What it has done follows by
induction on the number of its rounds, the last one at the end. Two loops of this kind come
with what they compute: one that increases some of its counters, and one that adds them up.
-/

namespace BenchBF3.Foundation

open Finset

variable {α γ : Type*}

/-- The last round of a loop comes after all others. -/
theorem foldl_range_succ (body : α → Nat → α) (start : α) (count : Nat) :
    (List.range (count + 1)).foldl body start =
      body ((List.range count).foldl body start) count := by
  rw [List.range_succ, List.foldl_append, List.foldl_cons, List.foldl_nil]

/-- A loop that adds a unit to the counter of every bucket that passes a test. -/
def tally [Add γ] (unit : γ) (test : Nat → Prop) [DecidablePred test] (count : Nat)
    (counters : Nat → γ) : Nat → γ :=
  (List.range count).foldl (fun counters bucket =>
    if test bucket then Function.update counters bucket (counters bucket + unit)
    else counters) counters

theorem tally_apply [Add γ] (unit : γ) (test : Nat → Prop) [DecidablePred test] (count : Nat)
    (counters : Nat → γ) (bucket : Nat) :
    tally unit test count counters bucket =
      if bucket < count ∧ test bucket then counters bucket + unit else counters bucket := by
  induction count with
  | zero => simp [tally]
  | succ count ih =>
      have hround : tally unit test (count + 1) counters =
          if test count then
            Function.update (tally unit test count counters) count
              (tally unit test count counters count + unit)
          else tally unit test count counters :=
        foldl_range_succ _ _ _
      rw [hround]
      by_cases hbucket : bucket = count
      · subst bucket
        simp only [Nat.lt_irrefl, false_and, if_false] at ih
        by_cases htest : test count <;> simp [htest, ih]
      · have hlt : bucket < count + 1 ↔ bucket < count := by omega
        simp only [hlt, ← ih]
        split
        next => exact Function.update_of_ne hbucket _ _
        next => rfl

/-- Which counter was increased shows in the result. -/
theorem update_add_inj [AddLeftCancelMonoid γ] {counters : Nat → γ} {unit : γ} (hunit : unit ≠ 0)
    {bucket other : Nat}
    (heq : Function.update counters bucket (counters bucket + unit) =
      Function.update counters other (counters other + unit)) : bucket = other := by
  by_contra hne
  have hat := congrFun heq bucket
  rw [Function.update_self, Function.update_of_ne hne] at hat
  exact hunit (left_eq_add.mp hat.symm)

variable [AddCommMonoid γ]

theorem sum_update_add (counters : Nat → γ) (unit : γ) {bucket count : Nat}
    (hbucket : bucket < count) :
    ∑ index ∈ range count, Function.update counters bucket (counters bucket + unit) index =
      ∑ index ∈ range count, counters index + unit := by
  have hmem := mem_range.mpr hbucket
  rw [sum_update_of_mem hmem, sum_eq_add_sum_sdiff_singleton_of_mem hmem counters, add_right_comm]

theorem foldl_add_range (counters : Nat → γ) (count : Nat) :
    (List.range count).foldl (fun sum index => sum + counters index) 0 =
      ∑ index ∈ range count, counters index := by
  induction count with
  | zero => rfl
  | succ count ih =>
      rw [foldl_range_succ, ih, sum_range_succ]

end BenchBF3.Foundation
