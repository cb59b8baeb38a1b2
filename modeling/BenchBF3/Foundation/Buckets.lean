import Mathlib.Data.Nat.Find
import Mathlib.Order.Lattice

/-! # Samples in buckets

Buckets are given by their lower bounds; the last one has no upper bound. The bounds need
not increase. It is enough that a sample is not below the first bound, and that a bound
above the sample is followed by bounds above it: the sample is then in exactly one bucket.
-/

namespace BenchBF3.Foundation

section Bounds

variable {β : Type*} [LinearOrder β] {bounds : Nat → β} {count : Nat} {sample : β}

/-- The sample is between the bounds of a bucket. -/
def InBucket (bounds : Nat → β) (count : Nat) (sample : β) (bucket : Nat) : Prop :=
  bounds bucket ≤ sample ∧ (bucket < count → sample < bounds (bucket + 1))

instance decidableInBucket (bounds : Nat → β) (count : Nat) (sample : β) (bucket : Nat) :
    Decidable (InBucket bounds count sample bucket) :=
  inferInstanceAs (Decidable (_ ∧ _))

/-- Bounds after one that is above the sample are above it too. -/
def StaysAbove (bounds : Nat → β) (count : Nat) (sample : β) : Prop :=
  ∀ bucket < count, sample < bounds bucket → sample < bounds (bucket + 1)

theorem StaysAbove.lt_of_le (hstays : StaysAbove bounds count sample) {first bucket : Nat}
    (hfirst : sample < bounds first) (hle : first ≤ bucket) (hbucket : bucket ≤ count) :
    sample < bounds bucket := by
  induction bucket, hle using Nat.le_induction with
  | base => exact hfirst
  | succ bucket _ ih => exact hstays bucket hbucket (ih (Nat.le_of_succ_le hbucket))

/-- The bucket is the last one whose lower bound is not above the sample. -/
theorem StaysAbove.existsUnique (hstays : StaysAbove bounds count sample)
    (hstart : bounds 0 ≤ sample) :
    ∃! bucket, bucket ≤ count ∧ InBucket bounds count sample bucket := by
  have hlast : bounds (Nat.findGreatest (bounds · ≤ sample) count) ≤ sample :=
    Nat.findGreatest_spec (P := (bounds · ≤ sample)) (Nat.zero_le count) hstart
  refine ⟨_, ⟨Nat.findGreatest_le count, hlast, ?_⟩, ?_⟩
  · intro hlt
    exact lt_of_not_ge (Nat.findGreatest_is_greatest (Nat.lt_succ_self _) hlt)
  · rintro other ⟨hother, hlower, hupper⟩
    apply le_antisymm
    · exact Nat.le_findGreatest hother hlower
    · by_contra hnot
      have hlt := Nat.lt_of_not_le hnot
      have habove := hupper (hlt.trans_le (Nat.findGreatest_le count))
      exact not_lt_of_ge hlast (hstays.lt_of_le habove hlt (Nat.findGreatest_le count))

end Bounds

end BenchBF3.Foundation
