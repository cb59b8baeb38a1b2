import Mathlib.Algebra.BigOperators.Group.Finset.Basic
import Mathlib.Algebra.Order.BigOperators.Group.Finset
import Mathlib.Data.BitVec
import BenchBF3.Channel.Accounting
import BenchBF3.Foundation.System

/-! # Reports while the workers run

The reporter of the benchmarks adds up the counters and the times of all
workers, and reports what was added since its last report. It takes no lock:
it reads one word after the other while the workers go on, and a worker writes
its counter and its time one after the other. A report is no snapshot, but the
reports of a run add up: no finished operation is reported twice and none that
was finished before a report began is left out. The DMA sender is one such worker:
the calls it makes leave the statistics that its accounts are kept in.
-/

namespace BenchBF3.Bench

open Foundation Channel Finset

/-! ## The workers' calls -/

/-- A single write of a worker to its `bench_stat`. -/
inductive StatWrite
  | ops (numOps : BitVec 64)
  | time (amount : BitVec 64)

def StatWrite.apply (stat : BenchStat) : StatWrite → BenchStat
  | .ops numOps => { stat with numOpsFinished := stat.numOpsFinished + numOps }
  | .time amount => { stat with timePoint := stat.timePoint + amount }

/-- The operations that a write adds. -/
def StatWrite.added : StatWrite → Nat
  | .ops numOps => numOps.toNat
  | .time _ => 0

/-- The calls of `bench_stat`, with the reading of the clock that each takes. -/
inductive StatCall
  | startOneOp (now : BitVec 64)
  | startBatchOp (numOps now : BitVec 64)
  | finishOneOpWithoutTime
  | finishOneOp (now : BitVec 64)
  | finishBatchOp (numOps now : BitVec 64)

/-- The writes of a call, in order: the counter is written before the timer. -/
def StatCall.writes : StatCall → List StatWrite
  | .startOneOp now => [.time (-now)]
  | .startBatchOp numOps now => [.time (-(now * numOps))]
  | .finishOneOpWithoutTime => [.ops 1]
  | .finishOneOp now => [.ops 1, .time now]
  | .finishBatchOp numOps now => [.ops numOps, .time (now * numOps)]

/-- Uninterrupted, the writes are the call as the accounts of the DMA sender have it. -/
theorem writes_startOneOp (stat : BenchStat) (now : BitVec 64) :
    (StatCall.startOneOp now).writes.foldl StatWrite.apply stat = stat.startOneOp now := by
  simp [StatCall.writes, StatWrite.apply, BenchStat.startOneOp, sub_eq_add_neg]

theorem writes_finishBatchOp (stat : BenchStat) (numOps now : BitVec 64) :
    (StatCall.finishBatchOp numOps now).writes.foldl StatWrite.apply stat =
      stat.finishBatchOp numOps now := rfl

/-! ## The reporter -/

/-- `operator+` of `bench_stat`. -/
def addStat (left right : BenchStat) : BenchStat where
  numOpsFinished := left.numOpsFinished + right.numOpsFinished
  timePoint := left.timePoint + right.timePoint

/-- `operator-` of `bench_stat`; a gap wraps like the counters it is taken from. -/
def subStat (left right : BenchStat) : BenchStat where
  numOpsFinished := left.numOpsFinished - right.numOpsFinished
  timePoint := left.timePoint - right.timePoint

/-- Where `report_collect` stands: before its next read of a counter or of a time. -/
inductive ReportPc
  | idle
  | readOps (index : Nat)
  | readTime (index : Nat)
  deriving DecidableEq, Repr

/-- How many counters have been read. -/
def ReportPc.opsRead : ReportPc → Nat
  | .idle => 0
  | .readOps index => index
  | .readTime index => index + 1

/-- How many times have been read. -/
def ReportPc.timesRead : ReportPc → Nat
  | .idle => 0
  | .readOps index => index
  | .readTime index => index

/-- What really happened: the operations that each worker finished, how many there
were when the report began and when the counter was read, the same for the last
complete report, and whether no worker has written since the report began. -/
structure History where
  finished : Nat → Nat
  begun : Nat → Nat
  read : Nat → Nat
  lastBegun : Nat → Nat
  lastRead : Nat → Nat
  quiet : Bool
  lastQuiet : Bool

/-- The workers' statistics with the writes that their calls still have to make, the
variables of `report_collect` and the gaps it has reported. -/
structure Reporter where
  stats : Nat → BenchStat
  pending : Nat → List StatWrite
  pc : ReportPc
  newStat : BenchStat
  lastStat : BenchStat
  gaps : List BenchStat
  history : History

namespace Reporter

def init : Reporter where
  stats _ := ⟨0, 0⟩
  pending _ := []
  pc := .idle
  newStat := ⟨0, 0⟩
  lastStat := ⟨0, 0⟩
  gaps := []
  history :=
    { finished _ := 0, begun _ := 0, read _ := 0, lastBegun _ := 0, lastRead _ := 0
      quiet := false, lastQuiet := false }

/-- A worker's next write. -/
def write (reporter : Reporter) (worker : Nat) (first : StatWrite) (rest : List StatWrite) :
    Reporter :=
  { reporter with
    stats := Function.update reporter.stats worker (first.apply (reporter.stats worker))
    pending := Function.update reporter.pending worker rest
    history :=
      { reporter.history with
        finished := Function.update reporter.history.finished worker
          (reporter.history.finished worker + first.added)
        quiet := false
        lastQuiet := false } }

/-- `report_collect` is called and starts from an empty `new_stat`. -/
def begin (reporter : Reporter) : Reporter :=
  { reporter with
    pc := .readOps 0
    newStat := ⟨0, 0⟩
    history := { reporter.history with begun := reporter.history.finished, quiet := true } }

/-- The counter of a worker is read and added. -/
def readOps (reporter : Reporter) (index : Nat) : Reporter :=
  { reporter with
    pc := .readTime index
    newStat := addStat reporter.newStat ⟨(reporter.stats index).numOpsFinished, 0⟩
    history :=
      { reporter.history with
        read := Function.update reporter.history.read index (reporter.history.finished index) } }

/-- The time of the same worker, which may have written in between. -/
def readTime (reporter : Reporter) (index : Nat) : Reporter :=
  { reporter with
    pc := .readOps (index + 1)
    newStat := addStat reporter.newStat ⟨0, (reporter.stats index).timePoint⟩ }

/-- The end of `report_collect`: the gap is reported, the sums are kept. -/
def report (reporter : Reporter) : Reporter :=
  { reporter with
    pc := .idle
    gaps := reporter.gaps ++ [subStat reporter.newStat reporter.lastStat]
    lastStat := reporter.newStat
    history :=
      { reporter.history with
        lastBegun := reporter.history.begun
        lastRead := reporter.history.read
        lastQuiet := reporter.history.quiet } }

end Reporter

inductive ReporterAction
  | call
  | write
  | begin
  | read
  | report
  deriving DecidableEq, Repr

/-- A worker makes one call after the other; every single write and every single read
is a step of its own, in any order. -/
inductive ReporterStep (numWorkers : Nat) : Reporter → ReporterAction → Reporter → Prop
  | call {reporter : Reporter} {worker : Nat} (call : StatCall) (hworker : worker < numWorkers)
      (hidle : reporter.pending worker = []) :
      ReporterStep numWorkers reporter .call
        { reporter with pending := Function.update reporter.pending worker call.writes }
  | write {reporter : Reporter} {worker : Nat} {first : StatWrite} {rest : List StatWrite}
      (hworker : worker < numWorkers) (hpending : reporter.pending worker = first :: rest) :
      ReporterStep numWorkers reporter .write (reporter.write worker first rest)
  | begin {reporter : Reporter} (hpc : reporter.pc = .idle) :
      ReporterStep numWorkers reporter .begin reporter.begin
  | readOps {reporter : Reporter} {index : Nat} (hpc : reporter.pc = .readOps index)
      (hindex : index < numWorkers) :
      ReporterStep numWorkers reporter .read (reporter.readOps index)
  | readTime {reporter : Reporter} {index : Nat} (hpc : reporter.pc = .readTime index) :
      ReporterStep numWorkers reporter .read (reporter.readTime index)
  | report {reporter : Reporter} {index : Nat} (hpc : reporter.pc = .readOps index)
      (hindex : ¬ index < numWorkers) :
      ReporterStep numWorkers reporter .report reporter.report

def reporterSystem (numWorkers : Nat) : System Reporter ReporterAction where
  start reporter := reporter = .init
  step := ReporterStep numWorkers

/-! ## The counters -/

/-- What each worker finished bounds what was read of it: a reading lies between the
count at the beginning of its report and the present one, and the readings of a
worker do not decrease from report to report. -/
structure Reporter.Counts (numWorkers : Nat) (reporter : Reporter) : Prop where
  bound : reporter.pc.opsRead ≤ numWorkers
  counted : ∀ worker, (reporter.stats worker).numOpsFinished =
    BitVec.ofNat 64 (reporter.history.finished worker)
  begun : reporter.pc ≠ .idle →
    ∀ worker, reporter.history.begun worker ≤ reporter.history.finished worker
  read : ∀ worker < reporter.pc.opsRead,
    reporter.history.begun worker ≤ reporter.history.read worker ∧
      reporter.history.lastRead worker ≤ reporter.history.read worker ∧
      reporter.history.read worker ≤ reporter.history.finished worker
  last : ∀ worker < numWorkers,
    reporter.history.lastBegun worker ≤ reporter.history.lastRead worker ∧
      reporter.history.lastRead worker ≤ reporter.history.finished worker
  newOps : reporter.pc ≠ .idle → reporter.newStat.numOpsFinished =
    BitVec.ofNat 64 (∑ worker ∈ range reporter.pc.opsRead, reporter.history.read worker)
  lastOps : reporter.lastStat.numOpsFinished =
    BitVec.ofNat 64 (∑ worker ∈ range numWorkers, reporter.history.lastRead worker)
  gaps : ∑ worker ∈ range numWorkers, reporter.history.finished worker < 2 ^ 64 →
    (reporter.gaps.map fun gap => gap.numOpsFinished.toNat).sum =
      ∑ worker ∈ range numWorkers, reporter.history.lastRead worker

section Counts

variable {numWorkers : Nat} {reporter next : Reporter} {action : ReporterAction}

theorem StatWrite.numOpsFinished_apply (stat : BenchStat) (first : StatWrite) :
    (first.apply stat).numOpsFinished =
      stat.numOpsFinished + BitVec.ofNat 64 first.added := by
  cases first with
  | ops numOps => rw [StatWrite.apply, StatWrite.added, BitVec.ofNat_toNat, BitVec.setWidth_eq]
  | time amount => exact (add_zero _).symm

theorem le_update_add (finished : Nat → Nat) (worker added other : Nat) :
    finished other ≤ Function.update finished worker (finished worker + added) other := by
  by_cases hother : other = worker
  · subst hother
    rw [Function.update_self]
    exact Nat.le_add_right _ _
  · rw [Function.update_of_ne hother]

/-- A difference of two counters that did not overflow. -/
theorem toNat_ofNat_sub_ofNat {small large : Nat} (hle : small ≤ large) (hlarge : large < 2 ^ 64) :
    (BitVec.ofNat 64 large - BitVec.ofNat 64 small).toNat = large - small := by
  rw [BitVec.toNat_sub_of_le, BitVec.toNat_ofNat, BitVec.toNat_ofNat, Nat.mod_eq_of_lt hlarge,
    Nat.mod_eq_of_lt (hle.trans_lt hlarge)]
  rw [BitVec.le_def, BitVec.toNat_ofNat, BitVec.toNat_ofNat, Nat.mod_eq_of_lt hlarge,
    Nat.mod_eq_of_lt (hle.trans_lt hlarge)]
  exact hle

theorem Reporter.Counts.write (hcounts : reporter.Counts numWorkers) (worker : Nat)
    (first : StatWrite) (rest : List StatWrite) :
    (reporter.write worker first rest).Counts numWorkers where
  bound := hcounts.bound
  counted := by
    intro other
    rw [Reporter.write]
    -- The worker's counter wraps, its history does not.
    by_cases hother : other = worker
    · subst hother
      simp only [Function.update_self]
      rw [StatWrite.numOpsFinished_apply, hcounts.counted, BitVec.ofNat_add]
    · simp only [Function.update_of_ne hother, hcounts.counted]
  begun := by
    intro hpc other
    exact (hcounts.begun hpc other).trans (le_update_add _ _ _ _)
  read := by
    intro other hother
    obtain ⟨hbegun, hlast, hread⟩ := hcounts.read other hother
    exact ⟨hbegun, hlast, hread.trans (le_update_add _ _ _ _)⟩
  last := by
    intro other hother
    obtain ⟨hbegun, hread⟩ := hcounts.last other hother
    exact ⟨hbegun, hread.trans (le_update_add _ _ _ _)⟩
  newOps := hcounts.newOps
  lastOps := hcounts.lastOps
  gaps := by
    intro htotal
    apply hcounts.gaps
    exact (sum_le_sum fun other _ => le_update_add _ _ _ _).trans_lt htotal

theorem Reporter.Counts.begin (hcounts : reporter.Counts numWorkers) :
    reporter.begin.Counts numWorkers where
  bound := Nat.zero_le _
  counted := hcounts.counted
  begun _ _ := le_rfl
  read _ hworker := absurd hworker (Nat.not_lt_zero _)
  last := hcounts.last
  newOps _ := rfl
  lastOps := hcounts.lastOps
  gaps := hcounts.gaps

theorem Reporter.Counts.readOps (hcounts : reporter.Counts numWorkers) {index : Nat}
    (hpc : reporter.pc = .readOps index) (hindex : index < numWorkers) :
    (reporter.readOps index).Counts numWorkers where
  bound := hindex
  counted := hcounts.counted
  begun _ := hcounts.begun (by simp [hpc])
  read := by
    intro worker hworker
    change worker < index + 1 at hworker
    rw [Reporter.readOps]
    -- The new reading is the present count, which no earlier one exceeds.
    by_cases hself : worker = index
    · subst hself
      simp only [Function.update_self]
      exact ⟨hcounts.begun (by simp [hpc]) worker, (hcounts.last worker hindex).2, le_rfl⟩
    · simp only [Function.update_of_ne hself]
      apply hcounts.read
      rw [hpc]
      exact lt_of_le_of_ne (Nat.le_of_lt_succ hworker) hself
  last := hcounts.last
  newOps := by
    intro _
    have hold := hcounts.newOps (by simp [hpc])
    rw [hpc] at hold
    have hprior : ∑ worker ∈ range index, Function.update reporter.history.read index
        (reporter.history.finished index) worker =
          ∑ worker ∈ range index, reporter.history.read worker := by
      apply sum_congr rfl
      intro worker hworker
      exact Function.update_of_ne (mem_range.mp hworker).ne _ _
    change reporter.newStat.numOpsFinished + (reporter.stats index).numOpsFinished =
      BitVec.ofNat 64 (∑ worker ∈ range (index + 1), Function.update reporter.history.read index
        (reporter.history.finished index) worker)
    rw [sum_range_succ, hprior, Function.update_self, BitVec.ofNat_add, hold, hcounts.counted]
    rfl
  lastOps := hcounts.lastOps
  gaps := hcounts.gaps

theorem Reporter.Counts.readTime (hcounts : reporter.Counts numWorkers) {index : Nat}
    (hpc : reporter.pc = .readTime index) : (reporter.readTime index).Counts numWorkers where
  bound := by
    have hbound := hcounts.bound
    rw [hpc] at hbound
    exact hbound
  counted := hcounts.counted
  begun _ := hcounts.begun (by simp [hpc])
  read := by
    have hread := hcounts.read
    rw [hpc] at hread
    exact hread
  last := hcounts.last
  newOps := by
    intro _
    have hold := hcounts.newOps (by simp [hpc])
    rw [hpc] at hold
    exact (add_zero _).trans hold
  lastOps := hcounts.lastOps
  gaps := hcounts.gaps

/-- The gap is the difference of two sums that did not overflow. -/
theorem Reporter.Counts.report (hcounts : reporter.Counts numWorkers) {index : Nat}
    (hpc : reporter.pc = .readOps index) (hindex : ¬ index < numWorkers) :
    reporter.report.Counts numWorkers := by
  have hbound := hcounts.bound
  have hread := hcounts.read
  have hnew := hcounts.newOps (by simp [hpc])
  rw [hpc] at hbound hread hnew
  -- The loop ends behind the last worker, so every one of them was read.
  obtain rfl : index = numWorkers := Nat.le_antisymm hbound (Nat.le_of_not_gt hindex)
  refine ⟨Nat.zero_le _, hcounts.counted, ?_, ?_, ?_, ?_, hnew, ?_⟩
  · intro hidle
    exact absurd rfl hidle
  · intro worker hworker
    exact absurd hworker (Nat.not_lt_zero _)
  · intro worker hworker
    obtain ⟨hbegun, -, hfinished⟩ := hread worker hworker
    exact ⟨hbegun, hfinished⟩
  · intro hidle
    exact absurd rfl hidle
  · intro htotal
    have hgrown : ∑ worker ∈ range index, reporter.history.lastRead worker ≤
        ∑ worker ∈ range index, reporter.history.read worker :=
      sum_le_sum fun worker hworker => (hread worker (mem_range.mp hworker)).2.1
    have hreads : ∑ worker ∈ range index, reporter.history.read worker < 2 ^ 64 :=
      (sum_le_sum fun worker hworker => (hread worker (mem_range.mp hworker)).2.2).trans_lt htotal
    have hgap : (subStat reporter.newStat reporter.lastStat).numOpsFinished.toNat =
        ∑ worker ∈ range index, reporter.history.read worker -
          ∑ worker ∈ range index, reporter.history.lastRead worker := by
      change (reporter.newStat.numOpsFinished - reporter.lastStat.numOpsFinished).toNat = _
      rw [hnew, hcounts.lastOps]
      exact toNat_ofNat_sub_ofNat hgrown hreads
    change ((reporter.gaps ++ [subStat reporter.newStat reporter.lastStat]).map fun gap =>
      gap.numOpsFinished.toNat).sum = ∑ worker ∈ range index, reporter.history.read worker
    rw [List.map_append, List.sum_append, hcounts.gaps htotal, List.map_singleton,
      List.sum_singleton, hgap]
    exact Nat.add_sub_cancel' hgrown

theorem ReporterStep.counts (hstep : ReporterStep numWorkers reporter action next)
    (hcounts : reporter.Counts numWorkers) : next.Counts numWorkers := by
  cases hstep with
  | call call hworker hidle => exact { hcounts with }
  | write hworker hpending => exact hcounts.write _ _ _
  | begin hpc => exact hcounts.begin
  | readOps hpc hindex => exact hcounts.readOps hpc hindex
  | readTime hpc => exact hcounts.readTime hpc
  | report hpc hindex => exact hcounts.report hpc hindex

theorem reporterSystem_counts (hreach : (reporterSystem numWorkers).Reachable reporter) :
    reporter.Counts numWorkers := by
  apply hreach.invariant
  · rintro _ rfl
    constructor <;> simp [Reporter.init, ReportPc.opsRead]
  · intro _ _ _ _ hcounts hstep
    exact ReporterStep.counts hstep hcounts

/-- The reported operations lie between those that were finished when the last
report began and those that are finished now. -/
theorem reported_between (numWorkers : Nat) (reporter : Reporter)
    (hreach : (reporterSystem numWorkers).Reachable reporter)
    (htotal : ∑ worker ∈ range numWorkers, reporter.history.finished worker < 2 ^ 64) :
    ∑ worker ∈ range numWorkers, reporter.history.lastBegun worker ≤
        (reporter.gaps.map fun gap => gap.numOpsFinished.toNat).sum ∧
      (reporter.gaps.map fun gap => gap.numOpsFinished.toNat).sum ≤
        ∑ worker ∈ range numWorkers, reporter.history.finished worker := by
  have hcounts := reporterSystem_counts hreach
  rw [hcounts.gaps htotal]
  constructor
  · exact sum_le_sum fun worker hworker => (hcounts.last worker (mem_range.mp hworker)).1
  · exact sum_le_sum fun worker hworker => (hcounts.last worker (mem_range.mp hworker)).2

end Counts

/-! ## Reports of resting workers -/

/-- The gaps always add up to the last sums; those are the workers' present counters
and times as long as nobody has written since they were taken. -/
structure Reporter.Sums (numWorkers : Nat) (reporter : Reporter) : Prop where
  bound : reporter.pc.opsRead ≤ numWorkers
  gapOps : (reporter.gaps.map BenchStat.numOpsFinished).sum = reporter.lastStat.numOpsFinished
  gapTime : (reporter.gaps.map BenchStat.timePoint).sum = reporter.lastStat.timePoint
  quiet : reporter.pc ≠ .idle → reporter.history.quiet = true →
    reporter.newStat.numOpsFinished =
        ∑ worker ∈ range reporter.pc.opsRead, (reporter.stats worker).numOpsFinished ∧
      reporter.newStat.timePoint =
        ∑ worker ∈ range reporter.pc.timesRead, (reporter.stats worker).timePoint
  lastQuiet : reporter.history.lastQuiet = true →
    reporter.lastStat.numOpsFinished =
        ∑ worker ∈ range numWorkers, (reporter.stats worker).numOpsFinished ∧
      reporter.lastStat.timePoint =
        ∑ worker ∈ range numWorkers, (reporter.stats worker).timePoint

section Sums

variable {numWorkers : Nat} {reporter next : Reporter} {action : ReporterAction}

theorem Reporter.Sums.readOps (hsums : reporter.Sums numWorkers) {index : Nat}
    (hpc : reporter.pc = .readOps index) (hindex : index < numWorkers) :
    (reporter.readOps index).Sums numWorkers where
  bound := hindex
  gapOps := hsums.gapOps
  gapTime := hsums.gapTime
  quiet := by
    intro _ hquiet
    obtain ⟨hops, htime⟩ := hsums.quiet (by simp [hpc]) hquiet
    rw [hpc] at hops htime
    constructor
    · change reporter.newStat.numOpsFinished + (reporter.stats index).numOpsFinished =
        ∑ worker ∈ range (index + 1), (reporter.stats worker).numOpsFinished
      rw [sum_range_succ, hops]
      rfl
    · exact (add_zero _).trans htime
  lastQuiet := hsums.lastQuiet

theorem Reporter.Sums.readTime (hsums : reporter.Sums numWorkers) {index : Nat}
    (hpc : reporter.pc = .readTime index) : (reporter.readTime index).Sums numWorkers where
  bound := by
    have hbound := hsums.bound
    rw [hpc] at hbound
    exact hbound
  gapOps := hsums.gapOps
  gapTime := hsums.gapTime
  quiet := by
    intro _ hquiet
    obtain ⟨hops, htime⟩ := hsums.quiet (by simp [hpc]) hquiet
    rw [hpc] at hops htime
    constructor
    · exact (add_zero _).trans hops
    · change reporter.newStat.timePoint + (reporter.stats index).timePoint =
        ∑ worker ∈ range (index + 1), (reporter.stats worker).timePoint
      rw [sum_range_succ, htime]
      rfl
  lastQuiet := hsums.lastQuiet

theorem Reporter.Sums.report (hsums : reporter.Sums numWorkers) {index : Nat}
    (hpc : reporter.pc = .readOps index) (hindex : ¬ index < numWorkers) :
    reporter.report.Sums numWorkers where
  bound := Nat.zero_le _
  gapOps := by
    rw [Reporter.report, List.map_append, List.sum_append, hsums.gapOps, List.map_singleton,
      List.sum_singleton]
    exact add_sub_cancel _ _
  gapTime := by
    rw [Reporter.report, List.map_append, List.sum_append, hsums.gapTime, List.map_singleton,
      List.sum_singleton]
    exact add_sub_cancel _ _
  quiet hidle := absurd rfl hidle
  lastQuiet := by
    intro hquiet
    have hbound := hsums.bound
    rw [hpc] at hbound
    obtain rfl : index = numWorkers := Nat.le_antisymm hbound (Nat.le_of_not_gt hindex)
    have hread := hsums.quiet (by simp [hpc]) hquiet
    rw [hpc] at hread
    exact hread

theorem ReporterStep.sums (hstep : ReporterStep numWorkers reporter action next)
    (hsums : reporter.Sums numWorkers) : next.Sums numWorkers := by
  cases hstep with
  | call call hworker hidle => exact { hsums with }
  | write hworker hpending =>
      -- A write ends the rest of both the present and the last report.
      exact ⟨hsums.bound, hsums.gapOps, hsums.gapTime,
        fun _ hquiet => absurd hquiet Bool.false_ne_true,
        fun hquiet => absurd hquiet Bool.false_ne_true⟩
  | begin hpc =>
      exact ⟨Nat.zero_le _, hsums.gapOps, hsums.gapTime, fun _ _ => ⟨rfl, rfl⟩, hsums.lastQuiet⟩
  | readOps hpc hindex => exact hsums.readOps hpc hindex
  | readTime hpc => exact hsums.readTime hpc
  | report hpc hindex => exact hsums.report hpc hindex

theorem reporterSystem_sums (hreach : (reporterSystem numWorkers).Reachable reporter) :
    reporter.Sums numWorkers := by
  apply hreach.invariant
  · rintro _ rfl
    constructor <;> simp [Reporter.init, ReportPc.opsRead]
  · intro _ _ _ _ hsums hstep
    exact ReporterStep.sums hstep hsums

/-- If no worker has written since the last report began, the reports add up to the
workers' counters and to their times. -/
theorem reported_exact (numWorkers : Nat) (reporter : Reporter)
    (hreach : (reporterSystem numWorkers).Reachable reporter)
    (hquiet : reporter.history.lastQuiet = true) :
    (reporter.gaps.map BenchStat.numOpsFinished).sum =
        ∑ worker ∈ range numWorkers, (reporter.stats worker).numOpsFinished ∧
      (reporter.gaps.map BenchStat.timePoint).sum =
        ∑ worker ∈ range numWorkers, (reporter.stats worker).timePoint := by
  have hsums := reporterSystem_sums hreach
  rw [hsums.gapOps, hsums.gapTime]
  exact hsums.lastQuiet hquiet

end Sums

/-- Two workers and two reports. Worker 0 finishes three operations, of which the first
report takes the count and not the time; worker 1 finishes one after that report has
begun and before it is read. The second report finds both workers at rest. -/
theorem twoReports_reachable : ∃ first second,
    (reporterSystem 2).Reachable first ∧ (reporterSystem 2).Reachable second ∧
    first.history.lastBegun 0 = 3 ∧ first.history.lastBegun 1 = 0 ∧
    first.history.finished 0 = 3 ∧ first.history.finished 1 = 1 ∧
    second.gaps.length = 2 ∧ second.history.lastQuiet = true ∧
    (second.stats 0).timePoint = 24 ∧ (second.stats 1).timePoint = 7 := by
  have hstart : (reporterSystem 2).Reachable .init := .start rfl
  have hbatch := hstart.step (@ReporterStep.call 2 _ 0 (.finishBatchOp 3 5) Nat.zero_lt_two rfl)
  have hbatchOps := hbatch.step (ReporterStep.write Nat.zero_lt_two rfl)
  have hbegin := hbatchOps.step (ReporterStep.begin rfl)
  have hops := hbegin.step (ReporterStep.readOps rfl Nat.zero_lt_two)
  have htime := hops.step (ReporterStep.readTime rfl)
  have hone := htime.step (@ReporterStep.call 2 _ 1 (.finishOneOp 7) Nat.one_lt_two rfl)
  have honeOps := hone.step (ReporterStep.write Nat.one_lt_two rfl)
  have hops' := honeOps.step (ReporterStep.readOps rfl Nat.one_lt_two)
  have htime' := hops'.step (ReporterStep.readTime rfl)
  have hfirst := htime'.step (ReporterStep.report rfl (Nat.lt_irrefl 2))
  have hbatchTime := hfirst.step (ReporterStep.write Nat.zero_lt_two rfl)
  have honeTime := hbatchTime.step (ReporterStep.write Nat.one_lt_two rfl)
  have hlast := honeTime.step (@ReporterStep.call 2 _ 0 (.finishOneOp 9) Nat.zero_lt_two rfl)
  have hlastOps := hlast.step (ReporterStep.write Nat.zero_lt_two rfl)
  have hlastTime := hlastOps.step (ReporterStep.write Nat.zero_lt_two rfl)
  have hagain := hlastTime.step (ReporterStep.begin rfl)
  have hread := hagain.step (ReporterStep.readOps rfl Nat.zero_lt_two)
  have hread' := hread.step (ReporterStep.readTime rfl)
  have hreadAll := hread'.step (ReporterStep.readOps rfl Nat.one_lt_two)
  have hreadAll' := hreadAll.step (ReporterStep.readTime rfl)
  have hsecond := hreadAll'.step (ReporterStep.report rfl (Nat.lt_irrefl 2))
  exact ⟨_, _, hfirst, hsecond, rfl, rfl, rfl, rfl, rfl, rfl, by decide, by decide⟩

theorem reported_between_torn : ∃ reporter, (reporterSystem 2).Reachable reporter ∧
    reporter.history.finished 1 = 1 ∧
    3 ≤ (reporter.gaps.map fun gap => gap.numOpsFinished.toNat).sum ∧
    (reporter.gaps.map fun gap => gap.numOpsFinished.toNat).sum ≤ 4 := by
  obtain ⟨reporter, -, hreach, -, hbegun, hbegun', hfinished, hfinished', -⟩ :=
    twoReports_reachable
  have hbegunAll : ∑ worker ∈ range 2, reporter.history.lastBegun worker = 3 := by
    simp [sum_range_succ, hbegun, hbegun']
  have hfinishedAll : ∑ worker ∈ range 2, reporter.history.finished worker = 4 := by
    simp [sum_range_succ, hfinished, hfinished']
  obtain ⟨hlower, hupper⟩ := reported_between 2 reporter hreach (by rw [hfinishedAll]; decide)
  rw [hbegunAll] at hlower
  rw [hfinishedAll] at hupper
  exact ⟨reporter, hreach, hfinished', hlower, hupper⟩

theorem reported_exact_twoReports : ∃ reporter, (reporterSystem 2).Reachable reporter ∧
    reporter.gaps.length = 2 ∧ (reporter.gaps.map BenchStat.timePoint).sum = 31 := by
  obtain ⟨-, reporter, -, hreach, -, -, -, -, hgaps, hquiet, hzero, hone⟩ := twoReports_reachable
  obtain ⟨-, htime⟩ := reported_exact 2 reporter hreach hquiet
  rw [sum_range_succ, sum_range_one, hzero, hone] at htime
  exact ⟨reporter, hreach, hgaps, htime⟩

/-! ## The DMA sender as a worker -/

section Sender

variable {numWorkers worker : Nat} {config : ChannelConfig}

/-- The writes of a call, made one after the other while the reporter rests. -/
theorem writes_reachable (hworker : worker < numWorkers) {writes : List StatWrite}
    {reporter : Reporter} (hreach : (reporterSystem numWorkers).Reachable reporter)
    (hpending : reporter.pending worker = writes) :
    ∃ next, (reporterSystem numWorkers).Reachable next ∧ next.pending worker = [] ∧
      next.stats worker = writes.foldl StatWrite.apply (reporter.stats worker) := by
  induction writes generalizing reporter with
  | nil => exact ⟨reporter, hreach, hpending, rfl⟩
  | cons first rest ih =>
      have hwrite := hreach.step (ReporterStep.write hworker hpending)
      obtain ⟨next, hnext, hdone, hstat⟩ := ih hwrite (Function.update_self _ _ _)
      refine ⟨next, hnext, hdone, ?_⟩
      rw [hstat, List.foldl_cons]
      exact congrArg (rest.foldl StatWrite.apply) (Function.update_self _ _ _)

theorem call_reachable (hworker : worker < numWorkers) {reporter : Reporter}
    (hreach : (reporterSystem numWorkers).Reachable reporter)
    (hidle : reporter.pending worker = []) (call : StatCall) :
    ∃ next, (reporterSystem numWorkers).Reachable next ∧ next.pending worker = [] ∧
      next.stats worker = call.writes.foldl StatWrite.apply (reporter.stats worker) := by
  have hcall := hreach.step (ReporterStep.call call hworker hidle)
  have hdone := writes_reachable hworker hcall (Function.update_self _ _ _)
  exact hdone

/-- Whatever calls of the sender fail, its statistics are those of a worker that the
reporter may find at rest. -/
theorem senderStat_reachable (hworker : worker < numWorkers) {run : SenderRun}
    (hreach : (runSystem config).Reachable run) :
    ∃ reporter, (reporterSystem numWorkers).Reachable reporter ∧
      reporter.pending worker = [] ∧ reporter.stats worker = run.stat := by
  induction hreach with
  | start hstart =>
      rw [hstart]
      exact ⟨.init, .start rfl, rfl, rfl⟩
  | step _ hstep ih =>
      obtain ⟨reporter, hreach, hidle, hstat⟩ := ih
      rcases RunStep.stat_cases hstep with hsame | ⟨now, hstart⟩ | ⟨numOps, now, hfinish⟩
      · exact ⟨reporter, hreach, hidle, hstat.trans hsame.symm⟩
      · obtain ⟨next, hnext, hdone, hnextStat⟩ :=
          call_reachable hworker hreach hidle (.startOneOp now)
        rw [writes_startOneOp, hstat] at hnextStat
        exact ⟨next, hnext, hdone, hnextStat.trans hstart.symm⟩
      · obtain ⟨next, hnext, hdone, hnextStat⟩ :=
          call_reachable hworker hreach hidle (.finishBatchOp numOps now)
        rw [writes_finishBatchOp, hstat] at hnextStat
        exact ⟨next, hnext, hdone, hnextStat.trans hfinish.symm⟩

end Sender

end BenchBF3.Bench
