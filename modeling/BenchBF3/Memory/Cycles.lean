import Mathlib.Algebra.Group.Action.Defs
import Mathlib.Algebra.Order.BigOperators.Group.Finset
import BenchBF3.Memory.Buckets

/-! # Differences of the cycle counter

`__dpa_thread_cycles` reads a counter of 32 bits. Three functions take the difference of two
readings in the same way: `timer_benchmark`, `timer_elapsed` and `single_cache_bench`. The
difference is right exactly when at least one cycle passed and the counter did not wrap.
After a wrap it is one too small, and two equal readings count as a whole turn. A run of
`timer_benchmark` shows each such pair in its total or in its number of overflows.
-/

namespace BenchBF3.Memory

open Foundation Finset

/-! ## The code -/

/-- The cycles between two readings, as all three functions compute them. -/
def cycleDifference (t0 t1 : BitVec 64) : BitVec 64 :=
  if t0 < t1 then t1 - t0 else ((1 : BitVec 64) <<< 32) - 1 + t1 - t0

structure TimerTotals where
  totalCycles : BitVec 64
  overflowTimes : BitVec 32
  deriving DecidableEq

def TimerTotals.round (totals : TimerTotals) (t0 t1 : BitVec 64) : TimerTotals where
  totalCycles := totals.totalCycles + cycleDifference t0 t1
  overflowTimes := if t0 < t1 then totals.overflowTimes else totals.overflowTimes + 1

def TimerTotals.rounds (readings : Nat → BitVec 64 × BitVec 64) (count : Nat) : TimerTotals :=
  (List.range count).foldl (fun totals i => totals.round (readings i).1 (readings i).2) ⟨0, 0⟩

/-- The number of rounds of `timer_benchmark`; none for a negative `times`. -/
def timerRounds (times : BitVec 32) : Nat := times.toInt.toNat

def timerBenchmark (times : BitVec 32) (readings : Nat → BitVec 64 × BitVec 64) : TimerTotals :=
  TimerTotals.rounds readings (timerRounds times)

def timerElapsedCycles (t1 t2 : BitVec 64) : BitVec 64 := 0 + cycleDifference t1 t2

/-- The nanoseconds at 1.8 GHz. -/
def timerElapsed (t1 t2 : BitVec 64) : BitVec 64 := timerElapsedCycles t1 t2 * 10 / 18

/-- The bytes of the working set: two sizes for each power of two from 2^8 on, the second
rounded down to whole elements of 64 bytes. -/
def initializeSizes (index : Nat) : Nat :=
  let size := 1 <<< (8 + index / 2)
  if index % 2 = 0 then size else size + size / 2 - (size + size / 2) % 64

/-- Each element points to the one after it, the last one to the first. -/
def initPchase (next : Nat → Nat) (numElem : Nat) : Nat → Nat :=
  fun i => if i < numElem then (i + 1) % numElem else next i

structure CacheBench where
  p : Nat
  cycles : Nat → BitVec 64

def CacheBench.round (next : Nat → Nat) (bench : CacheBench) (loopNum : Nat)
    (t1 t2 : BitVec 64) : CacheBench where
  p := next bench.p
  cycles := Function.update bench.cycles loopNum
    (bench.cycles loopNum + cycleDifference t1 t2)

def CacheBench.rounds (next : Nat → Nat) (readings : Nat → BitVec 64 × BitVec 64)
    (bench : CacheBench) (count : Nat) : CacheBench :=
  (List.range count).foldl
    (fun bench i => bench.round next i (readings i).1 (readings i).2) bench

def statistics (loopTotal : Nat) (cycles : Nat → BitVec 64) : Option Histogram :=
  bucketCyclesCount cycles (BitVec.ofNat 64 loopTotal) 10

/-- The loop runs `LOOP_TOTAL` times, a constant that depends on the target. -/
def singleCacheBench (loopTotal index : Nat) (next : Nat → Nat) (cycles : Nat → BitVec 64)
    (readings : Nat → BitVec 64 × BitVec 64) : CacheBench × Option Histogram :=
  let next := initPchase next (initializeSizes index / 64)
  let bench := CacheBench.rounds next readings { p := 0, cycles } loopTotal
  (bench, statistics loopTotal bench.cycles)

/-! ## The counter -/

/-- Between two readings: the counter at the first one, and the cycles that really passed. -/
structure Interval where
  start : BitVec 32
  elapsed : BitVec 32

namespace Interval

/-- The two readings. -/
def readings (interval : Interval) : BitVec 64 × BitVec 64 :=
  (interval.start.setWidth 64, (interval.start + interval.elapsed).setWidth 64)

/-- The counter wrapped between the readings. -/
def Wraps (interval : Interval) : Prop :=
  2 ^ 32 ≤ interval.start.toNat + interval.elapsed.toNat

/-- Time passed between the readings, without a wrap. -/
def Counted (interval : Interval) : Prop :=
  1 ≤ interval.elapsed.toNat ∧ interval.start.toNat + interval.elapsed.toNat < 2 ^ 32

instance decidablePredWraps : DecidablePred Wraps := fun _ => inferInstanceAs (Decidable (_ ≤ _))

instance decidablePredCounted : DecidablePred Counted :=
  fun _ => inferInstanceAs (Decidable (_ ∧ _))

/-- What the code takes for the elapsed cycles. -/
def measured (interval : Interval) : BitVec 64 :=
  cycleDifference interval.readings.1 interval.readings.2

variable {interval : Interval}

theorem Wraps.not_counted (hwraps : interval.Wraps) : ¬ interval.Counted :=
  fun hcounted => absurd hcounted.2 (Nat.not_lt.mpr hwraps)

theorem toNat_readings_fst : interval.readings.1.toNat = interval.start.toNat := by
  rw [readings, BitVec.toNat_setWidth]
  exact Nat.mod_eq_of_lt (by omega)

theorem toNat_readings_snd : interval.readings.2.toNat =
    (interval.start.toNat + interval.elapsed.toNat) % 2 ^ 32 := by
  rw [readings, BitVec.toNat_setWidth, BitVec.toNat_add]
  exact Nat.mod_eq_of_lt (by omega)

/-- The test on the readings is whether the pair is counted. -/
theorem readings_lt_iff : interval.readings.1 < interval.readings.2 ↔ interval.Counted := by
  rw [BitVec.lt_def, toNat_readings_fst, toNat_readings_snd, Counted]
  omega

theorem toNat_measured_of_counted (hcounted : interval.Counted) :
    interval.measured.toNat = interval.elapsed.toNat := by
  have hlt := readings_lt_iff.mpr hcounted
  rw [measured, cycleDifference, if_pos hlt, BitVec.toNat_sub_of_le (BitVec.le_of_lt hlt),
    toNat_readings_fst, toNat_readings_snd, Nat.mod_eq_of_lt hcounted.2]
  omega

/-- The other branch subtracts in 64 bits, but does not go below zero. -/
theorem toNat_measured_of_not_counted (hnot : ¬ interval.Counted) :
    interval.measured.toNat = 2 ^ 32 - 1 +
      (interval.start.toNat + interval.elapsed.toNat) % 2 ^ 32 - interval.start.toNat := by
  have hturn : (((1 : BitVec 64) <<< 32) - 1).toNat = 2 ^ 32 - 1 := rfl
  have hstart := interval.start.isLt
  have hadd : (((1 : BitVec 64) <<< 32) - 1 + interval.readings.2).toNat =
      2 ^ 32 - 1 + (interval.start.toNat + interval.elapsed.toNat) % 2 ^ 32 := by
    rw [BitVec.toNat_add, hturn, toNat_readings_snd]
    exact Nat.mod_eq_of_lt (by omega)
  rw [measured, cycleDifference, if_neg (readings_lt_iff.not.mpr hnot), BitVec.toNat_sub_of_le,
    hadd, toNat_readings_fst]
  rw [BitVec.le_def, hadd, toNat_readings_fst]
  omega

/-- After a wrap one cycle is missing. -/
theorem toNat_measured_of_wraps (hwraps : interval.Wraps) :
    interval.measured.toNat + 1 = interval.elapsed.toNat := by
  have hstart := interval.start.isLt
  have helapsed := interval.elapsed.isLt
  rw [toNat_measured_of_not_counted hwraps.not_counted]
  unfold Wraps at hwraps
  omega

/-- Two equal readings are taken for a turn less one cycle. -/
theorem toNat_measured_of_zero (hzero : interval.elapsed.toNat = 0) :
    interval.measured.toNat = 2 ^ 32 - 1 := by
  have hstart := interval.start.isLt
  have hnot : ¬ interval.Counted := fun hcounted => absurd hcounted.1 (by omega)
  rw [toNat_measured_of_not_counted hnot, hzero]
  omega

theorem not_counted_cases (hnot : ¬ interval.Counted) :
    interval.Wraps ∨ interval.elapsed.toNat = 0 := by
  unfold Counted at hnot
  unfold Wraps
  omega

theorem toNat_measured_lt : interval.measured.toNat < 2 ^ 32 := by
  have helapsed := interval.elapsed.isLt
  by_cases hcounted : interval.Counted
  · rw [toNat_measured_of_counted hcounted]
    exact helapsed
  · rcases not_counted_cases hcounted with hwraps | hzero
    · have hmissing := toNat_measured_of_wraps hwraps
      omega
    · rw [toNat_measured_of_zero hzero]
      decide

theorem toNat_measured_eq_iff :
    interval.measured.toNat = interval.elapsed.toNat ↔ interval.Counted := by
  constructor
  · intro heq
    by_contra hnot
    rcases not_counted_cases hnot with hwraps | hzero
    · have hmissing := toNat_measured_of_wraps hwraps
      omega
    · rw [toNat_measured_of_zero hzero, hzero] at heq
      exact absurd heq (by decide)
  · exact toNat_measured_of_counted

theorem measured_eq_iff : interval.measured = interval.elapsed.setWidth 64 ↔ interval.Counted := by
  have hwidth : (interval.elapsed.setWidth 64).toNat = interval.elapsed.toNat := by
    rw [BitVec.toNat_setWidth]
    exact Nat.mod_eq_of_lt (by omega)
  rw [← BitVec.toNat_inj, hwidth, toNat_measured_eq_iff]

end Interval

/-! ## The runs -/

theorem TimerTotals.rounds_succ (readings : Nat → BitVec 64 × BitVec 64) (count : Nat) :
    rounds readings (count + 1) =
      (rounds readings count).round (readings count).1 (readings count).2 :=
  foldl_range_succ _ _ _

theorem timerRounds_lt (times : BitVec 32) : timerRounds times < 2 ^ 31 := by
  have hlt : times.toInt < 2 ^ 31 := BitVec.toInt_lt
  unfold timerRounds
  omega

theorem CacheBench.rounds_succ (next : Nat → Nat) (readings : Nat → BitVec 64 × BitVec 64)
    (bench : CacheBench) (count : Nat) :
    rounds next readings bench (count + 1) =
      (rounds next readings bench count).round next count (readings count).1
        (readings count).2 :=
  foldl_range_succ _ _ _

section Runs

variable (intervals : Nat → Interval)

theorem sum_measured_le (count : Nat) :
    ∑ i ∈ range count, (intervals i).measured.toNat ≤ count * 2 ^ 32 := by
  have hle := sum_le_card_nsmul (range count) (fun i => (intervals i).measured.toNat) (2 ^ 32)
    fun _ _ => Interval.toNat_measured_lt.le
  rwa [card_range, smul_eq_mul] at hle

/-- After fewer than 2^31 rounds neither variable has wrapped. -/
theorem TimerTotals.toNat_rounds {count : Nat} (hcount : count < 2 ^ 31) :
    (rounds (fun i => (intervals i).readings) count).totalCycles.toNat =
        ∑ i ∈ range count, (intervals i).measured.toNat ∧
      (rounds (fun i => (intervals i).readings) count).overflowTimes.toNat =
        #{i ∈ range count | ¬ (intervals i).Counted} := by
  induction count with
  | zero => exact ⟨rfl, rfl⟩
  | succ count ih =>
      obtain ⟨htotal, hoverflow⟩ := ih (by omega)
      have hsum := sum_measured_le intervals (count + 1)
      rw [rounds_succ]
      constructor
      · rw [sum_range_succ] at hsum ⊢
        rw [round, BitVec.toNat_add, htotal]
        exact Nat.mod_eq_of_lt (by unfold Interval.measured at hsum ⊢; omega)
      · have hcard := card_filter_le (range count) fun i => ¬ (intervals i).Counted
        rw [card_range] at hcard
        rw [range_add_one, filter_insert, round]
        dsimp only
        simp only [Interval.readings_lt_iff]
        by_cases hcounted : (intervals count).Counted
        · rw [if_pos hcounted, if_neg (not_not.mpr hcounted), hoverflow]
        · rw [if_neg hcounted, if_pos hcounted, card_insert_of_notMem (by simp),
            BitVec.toNat_add, hoverflow]
          exact Nat.mod_eq_of_lt (by simp; omega)

/-- The number of overflows is wrong as soon as two readings are equal, and without such
pairs each wrap is missing in the total. -/
theorem sums_eq_iff (count : Nat) :
    (∑ i ∈ range count, (intervals i).measured.toNat =
        ∑ i ∈ range count, (intervals i).elapsed.toNat ∧
      #{i ∈ range count | ¬ (intervals i).Counted} = #{i ∈ range count | (intervals i).Wraps}) ↔
      ∀ i < count, (intervals i).Counted := by
  constructor
  · rintro ⟨hsum, hcard⟩
    have hsubset : {i ∈ range count | (intervals i).Wraps} ⊆
        {i ∈ range count | ¬ (intervals i).Counted} :=
      monotone_filter_right _ fun _ _ hwraps => hwraps.not_counted
    -- With the right number of overflows, the pairs not counted are those that wrapped.
    have hsame := eq_of_subset_of_card_le hsubset hcard.le
    have hle : ∀ i ∈ range count,
        (intervals i).measured.toNat ≤ (intervals i).elapsed.toNat := by
      intro i hi
      by_cases hcounted : (intervals i).Counted
      · exact (Interval.toNat_measured_of_counted hcounted).le
      · have hmem : i ∈ ({i ∈ range count | (intervals i).Wraps} : Finset Nat) :=
          hsame ▸ mem_filter.mpr ⟨hi, hcounted⟩
        exact Nat.le_of_succ_le (Interval.toNat_measured_of_wraps (mem_filter.mp hmem).2).le
    -- No pair is measured too long, so none is too short when the sums agree.
    intro i hi
    have heq := (sum_eq_sum_iff_of_le hle).mp hsum i (mem_range.mpr hi)
    exact Interval.toNat_measured_eq_iff.mp heq
  · intro hall
    have hnone (i : Nat) (hi : i ∈ range count) := hall i (mem_range.mp hi)
    constructor
    · exact sum_congr rfl fun i hi => Interval.toNat_measured_of_counted (hnone i hi)
    · rw [filter_false_of_mem fun i hi => not_not.mpr (hnone i hi),
        filter_false_of_mem fun i hi hwraps => hwraps.not_counted (hnone i hi)]

/-- Each round of `single_cache_bench` adds to its own place. -/
theorem CacheBench.rounds_cycles (next : Nat → Nat) (bench : CacheBench) (count i : Nat) :
    (rounds next (fun i => (intervals i).readings) bench count).cycles i =
      if i < count then bench.cycles i + (intervals i).measured else bench.cycles i := by
  induction count with
  | zero => rfl
  | succ count ih =>
      rw [rounds_succ, round]
      dsimp only
      by_cases hi : i = count
      · subst i
        rw [if_neg (Nat.lt_irrefl count)] at ih
        rw [Function.update_self, ih, if_pos (Nat.lt_succ_self count)]
        rfl
      · have hlt : i < count + 1 ↔ i < count := by omega
        simp only [Function.update_of_ne hi, ih, hlt]

theorem singleCacheBench_cycles (index : Nat) (next : Nat → Nat) (cycles : Nat → BitVec 64)
    {i loopTotal : Nat} (hi : i < loopTotal) :
    (singleCacheBench loopTotal index next cycles fun i => (intervals i).readings).1.cycles i =
      cycles i + (intervals i).measured := by
  rw [singleCacheBench, CacheBench.rounds_cycles, if_pos hi]

end Runs

/-- For every sequence of readings, all three functions are right exactly on the pairs
between which time passed and the counter did not wrap. -/
theorem cycleDifference_exact_iff (times : BitVec 32) (intervals : Nat → Interval) :
    ((timerBenchmark times fun i => (intervals i).readings).totalCycles.toNat =
          ∑ i ∈ range (timerRounds times), (intervals i).elapsed.toNat ∧
        (timerBenchmark times fun i => (intervals i).readings).overflowTimes.toNat =
          #{i ∈ range (timerRounds times) | (intervals i).Wraps} ↔
      ∀ i < timerRounds times, (intervals i).Counted) ∧
    (∀ loopTotal index next cycles, ∀ i < loopTotal,
      (singleCacheBench loopTotal index next cycles fun i => (intervals i).readings).1.cycles i =
          cycles i + (intervals i).elapsed.setWidth 64 ↔
        (intervals i).Counted) ∧
    ∀ i, timerElapsedCycles (intervals i).readings.1 (intervals i).readings.2 =
        (intervals i).elapsed.setWidth 64 ↔
      (intervals i).Counted := by
  refine ⟨?_, ?_, ?_⟩
  · obtain ⟨htotal, hoverflow⟩ := TimerTotals.toNat_rounds intervals (timerRounds_lt times)
    rw [timerBenchmark, htotal, hoverflow]
    exact sums_eq_iff intervals _
  · intro loopTotal index next cycles i hi
    rw [singleCacheBench_cycles intervals index next cycles hi, add_right_inj]
    exact Interval.measured_eq_iff
  · intro i
    rw [timerElapsedCycles, zero_add]
    exact Interval.measured_eq_iff

/-- Two cycles across a wrap count as one, and no cycle at all as a turn and an overflow. -/
theorem cycleDifference_not_exact :
    timerBenchmark 1 (fun _ => Interval.readings ⟨0xffffffff, 2⟩) = ⟨1, 1⟩ ∧
      timerElapsedCycles (Interval.readings ⟨0xffffffff, 2⟩).1
        (Interval.readings ⟨0xffffffff, 2⟩).2 = 1 ∧
      timerBenchmark 1 (fun _ => Interval.readings ⟨7, 0⟩) = ⟨0xffffffff, 1⟩ ∧
      ¬ Interval.Wraps ⟨7, 0⟩ := by
  decide

end BenchBF3.Memory
