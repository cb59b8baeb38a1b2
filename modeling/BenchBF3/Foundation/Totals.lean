import Mathlib.Algebra.BigOperators.Group.Finset.Piecewise
import Mathlib.Tactic.Abel

/-! # Totals of a store

The total of a store over a finite set of keys changes with a write by the
difference between the new value and the old one. Writes to different keys do not
see each other, so their differences add up.
-/

namespace BenchBF3.Foundation

variable {Key Value Index : Type*} [DecidableEq Key] [AddCommGroup Value] {keys : Finset Key}

theorem sum_update (store : Key → Value) {key : Key} (hkey : key ∈ keys) (value : Value) :
    ∑ other ∈ keys, Function.update store key value other =
      ∑ other ∈ keys, store other + (value - store key) := by
  rw [Finset.sum_update_of_mem hkey, ← Finset.sum_sdiff (Finset.singleton_subset_iff.mpr hkey),
    Finset.sum_singleton]
  abel

/-- Conditional writes to pairwise different keys. -/
theorem sum_foldl_update (key : Index → Key) (written : Index → Prop) [DecidablePred written]
    (value : Index → Value) {order : List Index} (store : Key → Value)
    (hkeys : ∀ index ∈ order, written index → key index ∈ keys)
    (hdistinct : order.Pairwise fun index other =>
      written index → written other → key index ≠ key other) :
    ∑ other ∈ keys, order.foldl (fun store index => if written index then
        Function.update store (key index) (value index) else store) store other =
      ∑ other ∈ keys, store other +
        (order.map fun index => if written index then value index - store (key index) else 0).sum
      := by
  induction order generalizing store with
  | nil => simp
  | cons index rest ih =>
      obtain ⟨hhead, hrest⟩ := List.pairwise_cons.mp hdistinct
      have hmore := fun store => ih store (fun other hother => hkeys other (.tail _ hother)) hrest
      rw [List.foldl_cons, hmore, List.map_cons, List.sum_cons]
      by_cases hwritten : written index
      · -- The later keys are others, so their old values are those of the store.
        have hsame : ∀ other ∈ rest, (if written other then value other -
              Function.update store (key index) (value index) (key other) else 0) =
            if written other then value other - store (key other) else 0 := by
          intro other hother
          split
          next hlater =>
            rw [Function.update_of_ne (hhead other hother hwritten hlater).symm]
          next => rfl
        rw [if_pos hwritten, if_pos hwritten, sum_update store (hkeys index (.head _) hwritten),
          List.map_congr_left hsame]
        abel
      · rw [if_neg hwritten, if_neg hwritten, zero_add]

end BenchBF3.Foundation
