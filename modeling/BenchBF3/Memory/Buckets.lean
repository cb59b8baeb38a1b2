import Mathlib.Data.BitVec
import BenchBF3.Foundation.Buckets
import BenchBF3.Foundation.Ints
import BenchBF3.Foundation.Loops

/-! # The histogram of the cycle counts

`bucket_cycles_count` spreads its samples over buckets of one width, from the smallest
sample on, and a last bucket without an end. The range and the width are kept in `int`s,
so the width may come out as zero or negative. Bounds are computed in 64 bits. They then
either increase without a wrap, or decrease and wrap once, to values above every sample;
in both cases each sample is counted once.
-/

namespace BenchBF3.Memory

open Foundation

/-! ## The code -/

/-- The loop over the samples for the smallest and the largest; `min` starts at 2^32. -/
def minMax (samples : List (BitVec 64)) : BitVec 64 × BitVec 64 :=
  samples.foldl (fun (min, max) sample =>
    (if sample < min then sample else min, if sample > max then sample else max))
    ((1 : BitVec 64) <<< 32, 0)

/-- The range of the samples, as an `int`. -/
def bucketRange (min max : BitVec 64) : BitVec 32 := (max - min + 1).setWidth 32

/-- The width of a bucket, computed in 64 bits and kept in an `int`. -/
def bucketStep (range : BitVec 32) (numBuckets : BitVec 64) : BitVec 32 :=
  ((toSize range - toSize range % numBuckets) / numBuckets).setWidth 32

def bucketBound (min : BitVec 64) (step : BitVec 32) (bucket : Nat) : BitVec 64 :=
  min + BitVec.ofNat 64 bucket * toSize step

/-- The inner loop and the test for the last bucket. -/
def countSample (min : BitVec 64) (step : BitVec 32) (numBuckets : BitVec 64)
    (buckets : Nat → BitVec 64) (sample : BitVec 64) : Nat → BitVec 64 :=
  let buckets := tally 1 (fun bucket => bucketBound min step bucket ≤ sample ∧
    bucketBound min step (bucket + 1) > sample) numBuckets.toNat buckets
  if min + toSize step * numBuckets ≤ sample then
    Function.update buckets numBuckets.toNat (buckets numBuckets.toNat + 1)
  else buckets

structure Histogram where
  min : BitVec 64
  max : BitVec 64
  step : BitVec 32
  buckets : Nat → BitVec 64
  sum : BitVec 64
  mismatch : Bool

/-- All loops, with the comparison at the end; a division by zero has no result. -/
def bucketCyclesCount (data : Nat → BitVec 64) (num numBuckets : BitVec 64) : Option Histogram :=
  if numBuckets = 0 then none
  else
    let samples := (List.range num.toNat).map data
    let (min, max) := minMax samples
    let step := bucketStep (bucketRange min max) numBuckets
    let buckets := samples.foldl (countSample min step numBuckets) fun _ => 0
    let sum := (List.range (numBuckets.toNat + 1)).foldl (fun sum i => sum + buckets i) 0
    some { min, max, step, buckets, sum, mismatch := sum != num }

/-! ## The bounds -/

theorem minMax_le (samples : List (BitVec 64)) :
    (minMax samples).1.toNat ≤ 2 ^ 32 ∧ ∀ sample ∈ samples, (minMax samples).1 ≤ sample := by
  unfold minMax
  induction samples using List.reverseRecOn with
  | nil => exact ⟨le_rfl, nofun⟩
  | append_singleton samples sample ih =>
      obtain ⟨hstart, hall⟩ := ih
      rw [List.foldl_append, List.foldl_cons, List.foldl_nil]
      dsimp only
      split
      next hless =>
        refine ⟨(BitVec.lt_def.mp hless).le.trans hstart, ?_⟩
        intro other hother
        rcases List.mem_append.mp hother with hold | hnew
        · exact BitVec.le_trans (BitVec.le_of_lt hless) (hall other hold)
        · exact (List.mem_singleton.mp hnew) ▸ BitVec.le_refl _
      next hnot =>
        refine ⟨hstart, ?_⟩
        intro other hother
        rcases List.mem_append.mp hother with hold | hnew
        · exact hall other hold
        · exact (List.mem_singleton.mp hnew) ▸ BitVec.not_lt.mp hnot

section Bounds

variable {min sample : BitVec 64} {step : BitVec 32} {bucket count : Nat}

theorem toNat_bucketBound_of_lt (hmin : min.toNat ≤ 2 ^ 32) (hstep : step.toNat < 2 ^ 31)
    (hbucket : bucket ≤ 2 ^ 32) :
    (bucketBound min step bucket).toNat = min.toNat + bucket * step.toNat := by
  have hmul : bucket * step.toNat ≤ 2 ^ 32 * 2 ^ 31 := Nat.mul_le_mul hbucket hstep.le
  rw [bucketBound, BitVec.toNat_add, BitVec.toNat_mul, BitVec.toNat_ofNat,
    toNat_toSize_of_lt hstep, Nat.mod_eq_of_lt (by omega : bucket < 2 ^ 64),
    Nat.mod_eq_of_lt (by omega : bucket * step.toNat < 2 ^ 64)]
  exact Nat.mod_eq_of_lt (by omega)

/-- With a negative width the bounds go down from the smallest sample, and around. -/
theorem toNat_bucketBound_of_ge (hmin : min.toNat ≤ 2 ^ 32) (hstep : 2 ^ 31 ≤ step.toNat)
    (hbucket : bucket < 2 ^ 32) :
    (bucketBound min step bucket).toNat =
      if bucket * (2 ^ 32 - step.toNat) ≤ min.toNat then
        min.toNat - bucket * (2 ^ 32 - step.toNat)
      else 2 ^ 64 + min.toNat - bucket * (2 ^ 32 - step.toNat) := by
  have hmul : bucket * (2 ^ 32 - step.toNat) ≤ 2 ^ 32 * 2 ^ 31 :=
    Nat.mul_le_mul hbucket.le (by omega)
  have hbound : bucketBound min step bucket =
      min - BitVec.ofNat 64 (bucket * (2 ^ 32 - step.toNat)) := by
    rw [bucketBound, toSize_of_ge hstep, BitVec.mul_neg, BitVec.ofNat_mul, BitVec.sub_eq_add_neg]
  rw [hbound, BitVec.toNat_sub, BitVec.toNat_ofNat,
    Nat.mod_eq_of_lt (by omega : bucket * (2 ^ 32 - step.toNat) < 2 ^ 64)]
  split <;> omega

/-- Whatever the width came out as, a bound above a sample is followed by bounds above. -/
theorem bucketBound_staysAbove (hmin : min.toNat ≤ 2 ^ 32) (hsample : sample.toNat < 2 ^ 63)
    (hle : min ≤ sample) (hcount : count < 2 ^ 32) :
    StaysAbove (fun bucket => (bucketBound min step bucket).toNat) count sample.toNat := by
  intro bucket hbucket habove
  dsimp only at habove ⊢
  rw [BitVec.le_def] at hle
  rcases Nat.lt_or_ge step.toNat (2 ^ 31) with hstep | hstep
  · rw [toNat_bucketBound_of_lt hmin hstep (by omega)] at habove ⊢
    rw [Nat.succ_mul]
    omega
  · have hmul : (bucket + 1) * (2 ^ 32 - step.toNat) ≤ (2 ^ 32 - 1) * 2 ^ 31 :=
      Nat.mul_le_mul (by omega) (by omega)
    rw [toNat_bucketBound_of_ge hmin hstep (by omega)] at habove ⊢
    rw [Nat.succ_mul] at hmul ⊢
    split at habove
    -- A bound that has not wrapped is not above the smallest sample.
    next => omega
    next =>
      rw [if_neg (by omega)]
      omega

/-- The sample passes the tests of a bucket. -/
def SampleIn (min : BitVec 64) (step : BitVec 32) (count : Nat) (sample : BitVec 64) :
    Nat → Prop :=
  InBucket (fun bucket => (bucketBound min step bucket).toNat) count sample.toNat

instance decidableSampleIn (min : BitVec 64) (step : BitVec 32) (count : Nat)
    (sample : BitVec 64) (bucket : Nat) : Decidable (SampleIn min step count sample bucket) :=
  decidableInBucket _ _ _ _

theorem existsUnique_sampleIn (hmin : min.toNat ≤ 2 ^ 32) (hsample : sample.toNat < 2 ^ 63)
    (hle : min ≤ sample) (hcount : count < 2 ^ 32) :
    ∃! bucket, bucket ≤ count ∧ SampleIn min step count sample bucket := by
  apply (bucketBound_staysAbove hmin hsample hle hcount).existsUnique
  have hzero : bucketBound min step 0 = min := by simp [bucketBound]
  rw [hzero]
  exact hle

end Bounds

/-! ## The counters -/

section Counters

variable {min : BitVec 64} {step : BitVec 32} {numBuckets : BitVec 64}

/-- The inner loop adds one to every bucket whose tests the sample passes. -/
theorem countSample_apply (buckets : Nat → BitVec 64) (sample : BitVec 64) (bucket : Nat) :
    countSample min step numBuckets buckets sample bucket =
      if bucket ≤ numBuckets.toNat ∧ SampleIn min step numBuckets.toNat sample bucket then
        buckets bucket + 1
      else buckets bucket := by
  have hlast : min + toSize step * numBuckets = bucketBound min step numBuckets.toNat := by
    rw [bucketBound, BitVec.ofNat_toNat, BitVec.setWidth_eq, BitVec.mul_comm]
  unfold countSample
  rw [hlast]
  by_cases hbucket : bucket = numBuckets.toNat
  · subst bucket
    have hin : SampleIn min step numBuckets.toNat sample numBuckets.toNat ↔
        bucketBound min step numBuckets.toNat ≤ sample :=
      and_iff_left fun hlt => absurd hlt (Nat.lt_irrefl _)
    simp only [hin, le_refl, true_and]
    split
    next => rw [Function.update_self, tally_apply, if_neg (by simp)]
    next => rw [tally_apply, if_neg (by simp)]
  · have hin : bucket ≤ numBuckets.toNat ∧ SampleIn min step numBuckets.toNat sample bucket ↔
        bucket < numBuckets.toNat ∧ bucketBound min step bucket ≤ sample ∧
          bucketBound min step (bucket + 1) > sample := by
      constructor
      · rintro ⟨hle, hlower, hupper⟩
        have hlt := Nat.lt_of_le_of_ne hle hbucket
        exact ⟨hlt, hlower, hupper hlt⟩
      · rintro ⟨hlt, hlower, hupper⟩
        exact ⟨hlt.le, hlower, fun _ => hupper⟩
    simp only [hin]
    split
    next => rw [Function.update_of_ne hbucket, tally_apply]
    next => rw [tally_apply]

/-- A sample that is in one bucket only is counted there only. -/
theorem countSample_eq_update {sample : BitVec 64} {bucket : Nat}
    (hbucket : bucket ≤ numBuckets.toNat)
    (hin : SampleIn min step numBuckets.toNat sample bucket)
    (hunique : ∀ other, other ≤ numBuckets.toNat ∧
      SampleIn min step numBuckets.toNat sample other → other = bucket)
    (buckets : Nat → BitVec 64) :
    countSample min step numBuckets buckets sample =
      Function.update buckets bucket (buckets bucket + 1) := by
  funext other
  rw [countSample_apply]
  by_cases hother : other = bucket
  · subst other
    rw [if_pos ⟨hbucket, hin⟩, Function.update_self]
  · rw [if_neg (fun hboth => hother (hunique other hboth)), Function.update_of_ne hother]

/-- A bucket counts the samples that pass its tests. -/
theorem foldl_countSample_apply (samples : List (BitVec 64)) (bucket : Nat)
    (hbucket : bucket ≤ numBuckets.toNat) :
    samples.foldl (countSample min step numBuckets) (fun _ => 0) bucket =
      BitVec.ofNat 64 (samples.countP fun sample =>
        SampleIn min step numBuckets.toNat sample bucket) := by
  induction samples using List.reverseRecOn with
  | nil => rfl
  | append_singleton samples sample ih =>
      rw [List.foldl_append, List.foldl_cons, List.foldl_nil, countSample_apply, ih,
        List.countP_append, List.countP_singleton]
      by_cases hin : SampleIn min step numBuckets.toNat sample bucket
      · rw [if_pos ⟨hbucket, hin⟩, if_pos (decide_eq_true hin), BitVec.ofNat_add]
        rfl
      · rw [if_neg fun hboth => hin hboth.2, if_neg (by simpa using hin), Nat.add_zero]

/-- Every sample counted once adds one to the sum. -/
theorem sum_foldl_countSample (samples : List (BitVec 64))
    (hunique : ∀ sample ∈ samples, ∃! bucket, bucket ≤ numBuckets.toNat ∧
      SampleIn min step numBuckets.toNat sample bucket) :
    ∑ bucket ∈ Finset.range (numBuckets.toNat + 1),
        samples.foldl (countSample min step numBuckets) (fun _ => 0) bucket =
      BitVec.ofNat 64 samples.length := by
  induction samples using List.reverseRecOn with
  | nil => exact Finset.sum_const_zero
  | append_singleton samples sample ih =>
      obtain ⟨bucket, ⟨hbucket, hin⟩, honly⟩ := hunique sample (by simp)
      rw [List.foldl_append, List.foldl_cons, List.foldl_nil,
        countSample_eq_update hbucket hin honly, sum_update_add _ _ (Nat.lt_succ_of_le hbucket),
        ih fun other hother => hunique other (List.mem_append_left _ hother),
        List.length_append, List.length_singleton, BitVec.ofNat_add]
      rfl

end Counters

/-- Every sample below 2^63 is counted in exactly one of the buckets, whatever the range and
the width came out as, and the sum of the buckets is the number of samples. -/
theorem bucketCyclesCount_complete (data : Nat → BitVec 64) (num numBuckets : BitVec 64)
    (hdata : ∀ i < num.toNat, (data i).toNat < 2 ^ 63) (hsome : 1 ≤ numBuckets.toNat)
    (hfew : numBuckets.toNat < 2 ^ 32) :
    ∃ histogram, bucketCyclesCount data num numBuckets = some histogram ∧
      (∀ i < num.toNat, ∀ buckets, ∃! bucket, bucket ≤ numBuckets.toNat ∧
        countSample histogram.min histogram.step numBuckets buckets (data i) =
          Function.update buckets bucket (buckets bucket + 1)) ∧
      (∀ bucket ≤ numBuckets.toNat, (histogram.buckets bucket).toNat =
        ((List.range num.toNat).map data).countP fun sample =>
          SampleIn histogram.min histogram.step numBuckets.toNat sample bucket) ∧
      histogram.sum = num ∧ histogram.mismatch = false := by
  have hnonzero : numBuckets ≠ 0 := by
    rintro rfl
    exact Nat.not_succ_le_zero 0 hsome
  set samples := (List.range num.toNat).map data with hsamples
  have hlength : samples.length = num.toNat := by simp [hsamples]
  obtain ⟨hmin, hle⟩ := minMax_le samples
  have hunique : ∀ sample ∈ samples, ∃! bucket, bucket ≤ numBuckets.toNat ∧
      SampleIn (minMax samples).1 (bucketStep (bucketRange (minMax samples).1
        (minMax samples).2) numBuckets) numBuckets.toNat sample bucket := by
    intro sample hsample
    obtain ⟨i, hi, rfl⟩ := List.mem_map.mp hsample
    exact existsUnique_sampleIn hmin (hdata i (List.mem_range.mp hi)) (hle _ hsample) hfew
  have hsum := sum_foldl_countSample samples hunique
  rw [← foldl_add_range, hlength, BitVec.ofNat_toNat, BitVec.setWidth_eq] at hsum
  refine ⟨_, if_neg hnonzero, ?_, ?_, hsum, bne_eq_false_iff_eq.mpr hsum⟩
  · intro i hi buckets
    obtain ⟨bucket, ⟨hbucket, hin⟩, honly⟩ :=
      hunique (data i) (List.mem_map.mpr ⟨i, List.mem_range.mpr hi, rfl⟩)
    have hupdate := countSample_eq_update hbucket hin honly buckets
    refine ⟨bucket, ⟨hbucket, hupdate⟩, ?_⟩
    rintro other ⟨-, hother⟩
    exact update_add_inj (by decide) (hother.symm.trans hupdate)
  · intro bucket hbucket
    have hfits (inBucket : BitVec 64 → Bool) : samples.countP inBucket < 2 ^ 64 :=
      (List.countP_le_length.trans_eq hlength).trans_lt num.isLt
    refine (congrArg BitVec.toNat (foldl_countSample_apply samples bucket hbucket)).trans ?_
    rw [BitVec.toNat_ofNat, Nat.mod_eq_of_lt (hfits _)]

/-- Three samples far apart: the range has the sign bit of an `int`, and the bounds go down. -/
theorem bucketCyclesCount_complete_wide :
    (bucketCyclesCount (fun i => if i = 0 then 5 else if i = 1 then 2 ^ 31 + 90 else 2 ^ 40) 3
      10).map (fun histogram => (histogram.sum, histogram.mismatch)) = some (3, false) := by
  obtain ⟨histogram, hsome, -, -, hsum, hmatch⟩ := bucketCyclesCount_complete
    (fun i => if i = 0 then 5 else if i = 1 then 2 ^ 31 + 90 else 2 ^ 40) 3 10
    (by decide) (by decide) (by decide)
  rw [hsome, Option.map_some, hsum, hmatch]

end BenchBF3.Memory
