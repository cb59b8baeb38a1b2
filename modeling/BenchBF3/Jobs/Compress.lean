import Mathlib.Order.Lattice.Nat
import BenchBF3.Jobs.Pipeline

/-! # The sliding window of the compression benchmark

Each job of the benchmark has a source and a destination buffer, kept in two arrays.
The number of jobs is fixed, so that it never wraps, and jobs in flight are less than a
batch apart, so that they are in different slots. A slot is therefore refilled only
after its buffers were deleted, each buffer is deleted once, after its job, and the
inventory of two buffers for each job of a batch suffices.
-/

namespace BenchBF3.Jobs

open Foundation

/-- The benchmark, with arrays for the source and for the destination buffers. -/
def compressBench (batchSize testLoop files : BitVec 64) : JobBench where
  batchSize := batchSize
  blocks := files
  guard := .upTo testLoop
  vecs := 2

/-! ## The objects in the slots -/

/-- The objects of the job with a number: each job creates one for each array. -/
def JobBench.objects (bench : JobBench) (number : Nat) : List Nat :=
  List.range' (number * bench.vecs) bench.vecs

def JobBench.slot (bench : JobBench) (number : Nat) : Nat := number % bench.batchSize.toNat

/-- What is in the arrays, in terms of the numbers of the jobs. -/
structure Pipeline.Held (bench : JobBench) (state : Pipeline) : Prop where
  jobs : ∀ number job, state.submitted[number]? = some job → job.objects = bench.objects number
  created : state.ledger.created = state.submitted.length * bench.vecs
  deleted : state.ledger.deleted = List.range (state.polled * bench.vecs)
  /-- The objects of a job that is not dequeued are in its slot. -/
  filled : ∀ number, state.polled ≤ number → number < state.submitted.length →
    ∀ vec < bench.vecs, state.vecs vec (bench.slot number) = some (number * bench.vecs + vec)
  /-- Whatever is in a slot came from a job of that slot. -/
  origin : ∀ vec slot object, state.vecs vec slot = some object →
    ∃ number < state.submitted.length, bench.slot number = slot ∧ object ∈ bench.objects number

section Held

variable {bench : JobBench} {state next : Pipeline} {action : BenchAction}

theorem toNat_modI {number : Nat} (hnumber : number < 2 ^ 64) :
    (BitVec.ofNat 64 number % bench.batchSize).toNat = bench.slot number := by
  rw [BitVec.toNat_umod, BitVec.toNat_ofNat, Nat.mod_eq_of_lt hnumber]
  rfl

/-- Control, the indices and the completions do not matter to the arrays. -/
theorem Pipeline.Held.withControl (hheld : state.Held bench) (pc : BenchPc)
    (totalIndex drainIndex : BitVec 64) (completed : Nat) :
    Held bench { state with pc, totalIndex, drainIndex, completed } :=
  ⟨hheld.jobs, hheld.created, hheld.deleted, hheld.filled, hheld.origin⟩

theorem Pipeline.Held.enqueueJob (hheld : state.Held bench)
    (hrange : state.submitted.length < 2 ^ 64)
    (hroom : state.submitted.length < state.polled + bench.batchSize.toNat) :
    (state.enqueueJob bench (BitVec.ofNat 64 state.submitted.length)).Held bench where
  jobs := by
    intro number job hjob
    simp only [Pipeline.enqueueJob, hheld.created] at hjob
    rcases Nat.lt_or_ge number state.submitted.length with hold | hnew
    · rw [List.getElem?_append_left hold] at hjob
      exact hheld.jobs number job hjob
    · rw [List.getElem?_append_right hnew, List.getElem?_singleton] at hjob
      split at hjob
      next hzero =>
        obtain rfl : number = state.submitted.length := by omega
        obtain rfl := Option.some.inj hjob
        rfl
      next => exact absurd hjob.symm (Option.some_ne_none job)
  created := by
    rw [length_enqueueJob, Nat.succ_mul]
    change state.ledger.created + bench.vecs = _
    rw [hheld.created]
  deleted := hheld.deleted
  filled := by
    intro number hpolled hnumber vec hvec
    rw [length_enqueueJob] at hnumber
    simp only [Pipeline.enqueueJob, toNat_modI hrange, hheld.created]
    rcases Nat.lt_or_eq_of_le (Nat.le_of_lt_succ hnumber) with hold | hnew
    · -- An older job that is not dequeued is less than a batch away.
      have hother : bench.slot number ≠ bench.slot state.submitted.length :=
        mod_ne_of_lt hold (by change state.polled ≤ number at hpolled; omega)
      rw [if_neg (fun hsame => hother hsame.2)]
      exact hheld.filled number hpolled hold vec hvec
    · rw [hnew, if_pos ⟨hvec, rfl⟩]
  origin := by
    intro vec slot object hobject
    simp only [Pipeline.enqueueJob, toNat_modI hrange, hheld.created] at hobject
    simp only [length_enqueueJob]
    split at hobject
    next hhere =>
      obtain rfl := Option.some.inj hobject
      refine ⟨_, Nat.lt_succ_self _, hhere.2.symm, ?_⟩
      rw [JobBench.objects, List.mem_range'_1]
      omega
    next =>
      obtain ⟨number, hnumber, hslot, hmem⟩ := hheld.origin vec slot object hobject
      exact ⟨number, hnumber.trans (Nat.lt_succ_self _), hslot, hmem⟩

/-- Dequeuing deletes the objects of the oldest job. -/
theorem Pipeline.Held.deletes (hheld : state.Held bench) (hrange : state.submitted.length < 2 ^ 64)
    (hsome : state.polled < state.submitted.length) :
    (List.range bench.vecs).filterMap (fun vec => state.vecs vec
      (BitVec.ofNat 64 state.polled % bench.batchSize).toNat) = bench.objects state.polled := by
  rw [toNat_modI (hsome.trans hrange), JobBench.objects, List.range'_eq_map_range,
    ← List.filterMap_eq_map]
  apply List.filterMap_congr
  intro vec hvec
  exact hheld.filled _ le_rfl hsome vec (List.mem_range.mp hvec)

theorem Pipeline.Held.dequeueJob (hheld : state.Held bench)
    (hrange : state.submitted.length < 2 ^ 64) (hsome : state.polled < state.submitted.length) :
    (state.dequeueJob bench (BitVec.ofNat 64 state.polled)).Held bench where
  jobs := hheld.jobs
  created := hheld.created
  deleted := by
    simp only [Pipeline.dequeueJob, hheld.deletes hrange hsome, Ledger.delete, hheld.deleted]
    rw [Nat.succ_mul, List.range_add, JobBench.objects, List.range'_eq_map_range]
  filled := fun number hpolled => hheld.filled number (Nat.le_of_succ_le hpolled)
  origin := hheld.origin

end Held

/-! ## The number of jobs -/

/-- How many jobs there are at each point, when the middle loop runs up to a number. -/
def Pipeline.Bounded (batchSize testLoop : Nat) (state : Pipeline) : Prop :=
  match state.pc with
  | .fill => state.submitted.length ≤ batchSize
  | .head => batchSize ≤ state.submitted.length ∧
      state.submitted.length ≤ max batchSize testLoop
  | .dequeue | .enqueue => batchSize ≤ state.submitted.length ∧ state.submitted.length < testLoop
  | .drain | .done => state.submitted.length = max batchSize testLoop

structure Pipeline.CompressOk (bench : JobBench) (testLoop : BitVec 64) (state : Pipeline) :
    Prop where
  ok : state.Ok bench
  bounded : state.Bounded bench.batchSize.toNat testLoop.toNat
  held : state.Held bench

section Compress

variable {batchSize testLoop files : BitVec 64} {state next : Pipeline} {action : BenchAction}

theorem Pipeline.Bounded.length_lt (hbounded : state.Bounded batchSize.toNat testLoop.toNat) :
    state.submitted.length < 2 ^ 64 := by
  have hbatch := batchSize.isLt
  have htest := testLoop.isLt
  unfold Pipeline.Bounded at hbounded
  split at hbounded <;> omega

/-- The test of the middle loop is that of the number of jobs. -/
theorem lt_testLoop_iff (hrange : state.submitted.length < 2 ^ 64)
    (hindex : state.totalIndex = BitVec.ofNat 64 state.submitted.length) :
    state.totalIndex < testLoop ↔ state.submitted.length < testLoop.toNat := by
  rw [BitVec.lt_def, hindex, BitVec.toNat_ofNat, Nat.mod_eq_of_lt hrange]

theorem BenchStep.bounded
    (hstep : BenchStep (compressBench batchSize testLoop files) state action next)
    (hok : state.Ok (compressBench batchSize testLoop files))
    (hbounded : state.Bounded batchSize.toNat testLoop.toNat) :
    next.Bounded batchSize.toNat testLoop.toNat := by
  have hcounted := hok.counted
  have hrange := hbounded.length_lt
  cases hstep with
  | fill hpc hlt =>
      have hfilled := (BenchStep.ok (.fill hpc hlt) hok).counted
      simp only [Pipeline.Counted, Pipeline.enqueueJob, hpc] at hfilled
      simp only [Pipeline.Bounded, Pipeline.enqueueJob, hpc]
      exact hfilled.2.1
  | filled hpc hge =>
      have hhead := (BenchStep.ok (.filled hpc hge) hok).counted
      simp only [Pipeline.Bounded, hpc] at hbounded
      simp only [Pipeline.Counted] at hhead
      have hfull : state.submitted.length = state.polled + batchSize.toNat := hhead.2
      exact ⟨by simp [hfull], hbounded.trans (Nat.le_max_left _ _)⟩
  | enter hpc hguard =>
      simp only [Pipeline.Counted, hpc] at hcounted
      simp only [Pipeline.Bounded, hpc] at hbounded
      exact ⟨hbounded.1, (lt_testLoop_iff hrange hcounted.1).mp hguard⟩
  | dequeue hpc _ =>
      simp only [Pipeline.Bounded, hpc] at hbounded
      exact hbounded
  | enqueue hpc =>
      simp only [Pipeline.Bounded, hpc] at hbounded
      simp only [Pipeline.Bounded, length_enqueueJob]
      omega
  | leave hpc hguard =>
      simp only [Pipeline.Counted, hpc] at hcounted
      simp only [Pipeline.Bounded, hpc] at hbounded
      have hstops : ¬ state.submitted.length < testLoop.toNat :=
        fun hlt => hguard ((lt_testLoop_iff hrange hcounted.1).mpr hlt)
      change state.submitted.length = max batchSize.toNat testLoop.toNat
      omega
  | drain hpc _ _ =>
      simp only [Pipeline.Bounded, hpc] at hbounded
      simpa only [Pipeline.Bounded, Pipeline.dequeueJob, hpc] using hbounded
  | finish hpc _ =>
      simp only [Pipeline.Bounded, hpc] at hbounded
      exact hbounded
  | complete _ => exact hbounded

theorem BenchStep.held {bench : JobBench} (hstep : BenchStep bench state action next)
    (hok : state.Ok bench) (hrange : state.submitted.length < 2 ^ 64)
    (hheld : state.Held bench) : next.Held bench := by
  have hcounted := hok.counted
  have hcompleted := hok.completed_le
  cases hstep with
  | fill hpc hlt =>
      have hbelow := (hcounted.lt_batch_iff hpc).mp hlt
      simp only [Pipeline.Counted, hpc] at hcounted
      have hnext := hheld.enqueueJob hrange (by omega)
      rw [hcounted.1]
      exact hnext.withControl _ _ _ _
  | enqueue hpc =>
      simp only [Pipeline.Counted, hpc] at hcounted
      have hnext := hheld.enqueueJob hrange (by omega)
      rw [hcounted.1]
      exact hnext.withControl _ _ _ _
  | dequeue hpc hevent =>
      simp only [Pipeline.Counted, hpc] at hcounted
      have hnext := hheld.dequeueJob hrange (hevent.trans_le hcompleted)
      rw [hcounted.1, ofNat_sub_batch hcounted.2]
      exact hnext.withControl _ _ _ _
  | drain hpc _ hevent =>
      simp only [Pipeline.Counted, hpc] at hcounted
      have hnext := hheld.dequeueJob hrange (hevent.trans_le hcompleted)
      rw [hcounted.1, ofNat_sub_batch hcounted.2.1]
      exact hnext.withControl _ _ _ _
  | filled _ _ | enter _ _ | leave _ _ | finish _ _ | complete _ =>
      exact hheld.withControl _ _ _ _

theorem compressBench_ok
    (hreach : (benchSystem (compressBench batchSize testLoop files)).Reachable state) :
    state.CompressOk (compressBench batchSize testLoop files) testLoop := by
  apply hreach.invariant
  · intro state hstart
    rw [hstart]
    exact ⟨⟨⟨rfl, Nat.zero_le _, rfl⟩, le_rfl, le_rfl⟩, Nat.zero_le _, nofun, rfl, rfl,
      fun _ _ hlt => absurd hlt nofun, nofun⟩
  · rintro state action next - ⟨hok, hbounded, hheld⟩ hstep
    exact ⟨BenchStep.ok hstep hok, BenchStep.bounded hstep hok hbounded,
      BenchStep.held hstep hok hbounded.length_lt hheld⟩

end Compress

/-! ## What the window guarantees -/

/-- The object belongs to a job that is completed. -/
def Pipeline.JobDone (state : Pipeline) (object : Nat) : Prop :=
  ∃ number job, state.submitted[number]? = some job ∧ object ∈ job.objects ∧
    number < state.completed

structure Pipeline.Windowed (bench : JobBench) (testLoop : BitVec 64) (state : Pipeline) :
    Prop where
  inFlight_le : state.submitted.length ≤ state.completed + bench.batchSize.toNat
  /-- What a slot held before it is refilled was deleted, and its job is completed. -/
  refill : ∀ action next, BenchStep bench state action next → ∀ vec slot object,
    state.vecs vec slot = some object → next.vecs vec slot ≠ some object →
    object ∈ state.ledger.deleted ∧ state.JobDone object
  deleted_nodup : state.ledger.deleted.Nodup
  deleted_done : ∀ object ∈ state.ledger.deleted,
    object < state.ledger.created ∧ state.JobDone object
  /-- The buffers that are not deleted fit the inventory. -/
  live_le : state.ledger.created ≤ state.ledger.deleted.length + 2 * bench.batchSize.toNat
  finished : state.pc = .done → state.completed = state.submitted.length ∧
    state.submitted.length = max bench.batchSize.toNat testLoop.toNat ∧
    ∀ object, object < state.ledger.created → state.ledger.deleted.count object = 1

section Windowed

variable {bench : JobBench} {state next : Pipeline} {action : BenchAction}

theorem Pipeline.Held.jobDone (hheld : state.Held bench) (hok : state.Ok bench)
    {number object : Nat} (hnumber : number < state.polled)
    (hobject : object ∈ bench.objects number) : state.JobDone object := by
  have hpolled := hok.polled_le
  have hcompleted := hok.completed_le
  have hjob := List.getElem?_eq_getElem (l := state.submitted) (i := number) (by omega)
  refine ⟨number, _, hjob, ?_, by omega⟩
  rwa [hheld.jobs number _ hjob]

theorem Pipeline.Held.mem_deleted (hheld : state.Held bench) {number object : Nat}
    (hnumber : number < state.polled) (hobject : object ∈ bench.objects number) :
    object ∈ state.ledger.deleted := by
  rw [hheld.deleted, List.mem_range]
  rw [JobBench.objects, List.mem_range'_1] at hobject
  calc object < (number + 1) * bench.vecs := by rw [Nat.succ_mul]; exact hobject.2
    _ ≤ state.polled * bench.vecs := Nat.mul_le_mul_right _ hnumber

/-- What stands in the slot of the next job came from a job that was dequeued. -/
theorem Pipeline.Held.refilled (hheld : state.Held bench) (hok : state.Ok bench)
    (hroom : state.submitted.length < state.polled + bench.batchSize.toNat) {vec object : Nat}
    (hobject : state.vecs vec (bench.slot state.submitted.length) = some object) :
    object ∈ state.ledger.deleted ∧ state.JobDone object := by
  obtain ⟨number, hnumber, hslot, hmem⟩ := hheld.origin _ _ _ hobject
  have hold : number < state.polled := by
    by_contra hnot
    exact mod_ne_of_lt hnumber (by omega) hslot
  exact ⟨hheld.mem_deleted hold hmem, hheld.jobDone hok hold hmem⟩

theorem BenchStep.refill (hstep : BenchStep bench state action next) (hok : state.Ok bench)
    (hrange : state.submitted.length < 2 ^ 64) (hheld : state.Held bench) {vec slot object : Nat}
    (hobject : state.vecs vec slot = some object) (hchanged : next.vecs vec slot ≠ some object) :
    object ∈ state.ledger.deleted ∧ state.JobDone object := by
  have hcounted := hok.counted
  have henqueue : ∀ {index}, index = BitVec.ofNat 64 state.submitted.length →
      (state.enqueueJob bench index).vecs vec slot ≠ some object →
      slot = bench.slot state.submitted.length := by
    rintro _ rfl hnew
    by_contra hother
    simp only [Pipeline.enqueueJob, toNat_modI hrange] at hnew
    rw [if_neg (fun hhere => hother hhere.2)] at hnew
    exact hnew hobject
  cases hstep with
  | fill hpc hlt =>
      have hbelow := (hcounted.lt_batch_iff hpc).mp hlt
      simp only [Pipeline.Counted, hpc] at hcounted
      rw [henqueue hcounted.1 hchanged] at hobject
      exact hheld.refilled hok (by omega) hobject
  | enqueue hpc =>
      simp only [Pipeline.Counted, hpc] at hcounted
      rw [henqueue hcounted.1 hchanged] at hobject
      exact hheld.refilled hok (by omega) hobject
  | _ => exact absurd hobject hchanged

end Windowed

section Compress

variable {batchSize testLoop files : BitVec 64} {state : Pipeline}

theorem Pipeline.CompressOk.deleted_done
    (hok : state.CompressOk (compressBench batchSize testLoop files) testLoop) {object : Nat}
    (hobject : object ∈ state.ledger.deleted) :
    object < state.ledger.created ∧ state.JobDone object := by
  have hpolled := hok.ok.polled_le.trans hok.ok.completed_le
  rw [hok.held.deleted, List.mem_range] at hobject
  constructor
  · rw [hok.held.created]
    exact hobject.trans_le (Nat.mul_le_mul_right _ hpolled)
  · -- Each job has two buffers, so half the object's number is that of its job.
    have hnumber : object / 2 < state.polled := Nat.div_lt_of_lt_mul (by
      rw [Nat.mul_comm]
      exact hobject)
    refine hok.held.jobDone hok.ok hnumber ?_
    rw [JobBench.objects, List.mem_range'_1]
    change object / 2 * 2 ≤ object ∧ object < object / 2 * 2 + 2
    omega

theorem Pipeline.CompressOk.finished
    (hok : state.CompressOk (compressBench batchSize testLoop files) testLoop)
    (hpc : state.pc = .done) : state.completed = state.submitted.length ∧
      state.submitted.length = max batchSize.toNat testLoop.toNat ∧
      ∀ object, object < state.ledger.created → state.ledger.deleted.count object = 1 := by
  have hcounted := hok.ok.counted
  have hbounded := hok.bounded
  simp only [Pipeline.Counted, hpc] at hcounted
  simp only [Pipeline.Bounded, hpc] at hbounded
  have hcompleted := hok.ok.completed_le
  have hpolled := hok.ok.polled_le
  refine ⟨by omega, hbounded, ?_⟩
  intro object hobject
  rw [hok.held.created, ← hcounted.2, ← List.mem_range, ← hok.held.deleted] at hobject
  exact List.count_eq_one_of_mem (hok.held.deleted ▸ List.nodup_range) hobject

theorem Pipeline.CompressOk.windowed
    (hok : state.CompressOk (compressBench batchSize testLoop files) testLoop) :
    state.Windowed (compressBench batchSize testLoop files) testLoop := by
  have hwindow : state.submitted.length ≤ state.polled + batchSize.toNat := hok.ok.window
  have hpolled := hok.ok.polled_le
  refine ⟨?_, ?_, ?_, fun _ => hok.deleted_done, ?_, hok.finished⟩
  · exact hwindow.trans (Nat.add_le_add_right hpolled _)
  · intro action next hstep vec slot object hobject hchanged
    exact BenchStep.refill hstep hok.ok hok.bounded.length_lt hok.held hobject hchanged
  · rw [hok.held.deleted]
    exact List.nodup_range
  · rw [hok.held.created, hok.held.deleted, List.length_range]
    change state.submitted.length * 2 ≤ state.polled * 2 + 2 * batchSize.toNat
    omega

theorem compressBench_ends (hbatch : 1 ≤ batchSize.toNat) :
    ∃ state, (benchSystem (compressBench batchSize testLoop files)).Reachable state ∧
      state.pc = .done := by
  have hbatchLt := batchSize.isLt
  have htestLt := testLoop.isLt
  have hcontinues : ∀ round < testLoop.toNat - batchSize.toNat,
      BitVec.ofNat 64 (batchSize.toNat + round) < testLoop := by
    intro round hround
    rw [BitVec.lt_def, BitVec.toNat_ofNat]
    exact (Nat.mod_le _ _).trans_lt (by omega)
  have hstops : ¬ BitVec.ofNat 64
      (batchSize.toNat + (testLoop.toNat - batchSize.toNat)) < testLoop := by
    rw [BitVec.lt_def, BitVec.toNat_ofNat, Nat.mod_eq_of_lt (by omega)]
    omega
  obtain ⟨state, hreach, hcaught⟩ :=
    benchSystem_done (compressBench batchSize testLoop files) _ hbatch hcontinues hstops
  exact ⟨state, hreach, hcaught.pc⟩

/-- For every batch size, every number of jobs and of files: the window in all states
of all runs, and a run to the end. -/
theorem compress_windowed (hbatch : 1 ≤ batchSize.toNat) (testLoop files : BitVec 64) :
    (∀ state, (benchSystem (compressBench batchSize testLoop files)).Reachable state →
      state.Windowed (compressBench batchSize testLoop files) testLoop) ∧
    ∃ state, (benchSystem (compressBench batchSize testLoop files)).Reachable state ∧
      state.pc = .done :=
  ⟨fun _ hreach => (compressBench_ok hreach).windowed, compressBench_ends hbatch⟩

/-- A batch of two with a loop up to five, over three files: the middle loop has three
rounds, and each buffer is deleted once. -/
theorem compress_windowed_fiveJobs :
    ∃ state, (benchSystem (compressBench 2 5 3)).Reachable state ∧ state.pc = .done ∧
      state.submitted.length = 5 ∧
      ∀ object, object < state.ledger.created → state.ledger.deleted.count object = 1 := by
  obtain ⟨hwindowed, state, hreach, hpc⟩ :=
    compress_windowed (show 1 ≤ (2 : BitVec 64).toNat by decide) 5 3
  obtain ⟨-, hsubmitted, hdeleted⟩ := (hwindowed state hreach).finished hpc
  exact ⟨state, hreach, hpc, hsubmitted, hdeleted⟩

end Compress

end BenchBF3.Jobs
