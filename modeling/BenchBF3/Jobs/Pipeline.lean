import Mathlib.Data.BitVec
import BenchBF3.Foundation.Ledger
import BenchBF3.Foundation.Ring
import BenchBF3.Foundation.System

/-! # Benchmarks that keep a batch of jobs in flight

The compression and the erasure coding benchmarks have the same three loops: a batch of
jobs is enqueued, then each further round dequeues the oldest job and enqueues a new
one, and last the batch is dequeued. A job's buffers are kept in arrays of batch size,
at the job's number modulo the batch size. The benchmarks differ in when the middle
loop ends and in how many arrays there are. The work queue completes jobs in order.
-/

namespace BenchBF3.Jobs

open Foundation

/-- What the middle loop tests: a number of jobs, or that the runner is running. -/
inductive LoopGuard
  | upTo (testLoop : BitVec 64)
  | running
  deriving DecidableEq, Repr

def LoopGuard.Continues : LoopGuard → BitVec 64 → Prop
  | .upTo testLoop, totalIndex => totalIndex < testLoop
  | .running, _ => True

def LoopGuard.Stops : LoopGuard → BitVec 64 → Prop
  | .upTo testLoop, totalIndex => ¬ totalIndex < testLoop
  | .running, _ => True

/-- A benchmark: its batch size, the number of data blocks that the jobs take in turn,
its loop, and the number of its arrays. -/
structure JobBench where
  batchSize : BitVec 64
  blocks : BitVec 64
  guard : LoopGuard
  vecs : Nat

structure Job where
  block : BitVec 64
  objects : List Nat
  deriving DecidableEq, Repr

inductive BenchPc
  | fill
  | head
  | dequeue
  | enqueue
  | drain
  | done
  deriving DecidableEq, Repr

/-- `drainIndex` is the index of the last loop. Of the submitted jobs the first
`completed` ones are done, and the events of the first `polled` ones were taken. -/
structure Pipeline where
  pc : BenchPc
  totalIndex : BitVec 64
  drainIndex : BitVec 64
  vecs : Nat → Nat → Option Nat
  ledger : Ledger
  submitted : List Job
  completed : Nat
  polled : Nat

def Pipeline.init : Pipeline where
  pc := .fill
  totalIndex := 0
  drainIndex := 0
  vecs := fun _ _ => none
  ledger := .empty
  submitted := []
  completed := 0
  polled := 0

/-- One object is created for each array, and the job is submitted. -/
def Pipeline.enqueueJob (bench : JobBench) (state : Pipeline) (i : BitVec 64) : Pipeline :=
  let modI := (i % bench.batchSize).toNat
  { state with
    vecs := fun vec slot =>
      if vec < bench.vecs ∧ slot = modI then some (state.ledger.created + vec)
      else state.vecs vec slot
    ledger := state.ledger.create bench.vecs
    submitted := state.submitted ++
      [⟨i % bench.blocks, List.range' state.ledger.created bench.vecs⟩] }

/-- The event of a completed job is taken, and the objects of a slot are deleted. -/
def Pipeline.dequeueJob (bench : JobBench) (state : Pipeline) (i : BitVec 64) : Pipeline :=
  let modI := (i % bench.batchSize).toNat
  { state with
    ledger := state.ledger.delete
      ((List.range bench.vecs).filterMap fun vec => state.vecs vec modI)
    polled := state.polled + 1 }

inductive BenchAction
  | fill
  | filled
  | enter
  | dequeue
  | enqueue
  | leave
  | drain
  | finish
  | complete
  deriving DecidableEq, Repr

/-- `poll_completion` is called until there is an event, so a job is dequeued only
once one is completed. -/
inductive BenchStep (bench : JobBench) : Pipeline → BenchAction → Pipeline → Prop
  | fill {state : Pipeline} (hpc : state.pc = .fill)
      (hlt : state.totalIndex < bench.batchSize) :
      BenchStep bench state .fill
        { state.enqueueJob bench state.totalIndex with totalIndex := state.totalIndex + 1 }
  | filled {state : Pipeline} (hpc : state.pc = .fill)
      (hge : ¬ state.totalIndex < bench.batchSize) :
      BenchStep bench state .filled { state with pc := .head }
  | enter {state : Pipeline} (hpc : state.pc = .head)
      (hguard : bench.guard.Continues state.totalIndex) :
      BenchStep bench state .enter { state with pc := .dequeue }
  | dequeue {state : Pipeline} (hpc : state.pc = .dequeue)
      (hevent : state.polled < state.completed) :
      BenchStep bench state .dequeue
        { state.dequeueJob bench (state.totalIndex - bench.batchSize) with pc := .enqueue }
  | enqueue {state : Pipeline} (hpc : state.pc = .enqueue) :
      BenchStep bench state .enqueue
        { state.enqueueJob bench state.totalIndex with
          pc := .head
          totalIndex := state.totalIndex + 1 }
  | leave {state : Pipeline} (hpc : state.pc = .head)
      (hguard : bench.guard.Stops state.totalIndex) :
      BenchStep bench state .leave { state with pc := .drain, drainIndex := 0 }
  | drain {state : Pipeline} (hpc : state.pc = .drain)
      (hlt : state.drainIndex < bench.batchSize) (hevent : state.polled < state.completed) :
      BenchStep bench state .drain
        { state.dequeueJob bench (state.totalIndex - bench.batchSize) with
          drainIndex := state.drainIndex + 1
          totalIndex := state.totalIndex + 1 }
  | finish {state : Pipeline} (hpc : state.pc = .drain)
      (hge : ¬ state.drainIndex < bench.batchSize) :
      BenchStep bench state .finish { state with pc := .done }
  | complete {state : Pipeline} (hpending : state.completed < state.submitted.length) :
      BenchStep bench state .complete { state with completed := state.completed + 1 }

def benchSystem (bench : JobBench) : System Pipeline BenchAction where
  start state := state = .init
  step := BenchStep bench

/-! ## The three loops and their index -/

/-- The index and the numbers of submitted and dequeued jobs at each point. -/
def Pipeline.Counted (bench : JobBench) (state : Pipeline) : Prop :=
  match state.pc with
  | .fill => state.totalIndex = BitVec.ofNat 64 state.submitted.length ∧
      state.submitted.length ≤ bench.batchSize.toNat ∧ state.polled = 0
  | .head | .dequeue => state.totalIndex = BitVec.ofNat 64 state.submitted.length ∧
      state.submitted.length = state.polled + bench.batchSize.toNat
  | .enqueue => state.totalIndex = BitVec.ofNat 64 state.submitted.length ∧
      state.submitted.length + 1 = state.polled + bench.batchSize.toNat
  | .drain =>
      state.totalIndex = BitVec.ofNat 64 (state.submitted.length + state.drainIndex.toNat) ∧
      state.submitted.length + state.drainIndex.toNat = state.polled + bench.batchSize.toNat ∧
      state.drainIndex.toNat ≤ bench.batchSize.toNat
  | .done =>
      state.totalIndex = BitVec.ofNat 64 (state.submitted.length + bench.batchSize.toNat) ∧
      state.polled = state.submitted.length

structure Pipeline.Ok (bench : JobBench) (state : Pipeline) : Prop where
  counted : state.Counted bench
  polled_le : state.polled ≤ state.completed
  completed_le : state.completed ≤ state.submitted.length

section Counted

variable {bench : JobBench} {state next : Pipeline} {action : BenchAction}

theorem ofNat_succ (count : Nat) :
    BitVec.ofNat 64 count + 1 = BitVec.ofNat 64 (count + 1) := by
  rw [BitVec.ofNat_add]
  rfl

theorem length_enqueueJob (i : BitVec 64) :
    (state.enqueueJob bench i).submitted.length = state.submitted.length + 1 := by
  simp [Pipeline.enqueueJob]

/-- The number of the job that is dequeued, computed from the index, wraps or not. -/
theorem ofNat_sub_batch {count polled : Nat} (hcount : count = polled + bench.batchSize.toNat) :
    BitVec.ofNat 64 count - bench.batchSize = BitVec.ofNat 64 polled := by
  rw [hcount, BitVec.ofNat_add, BitVec.ofNat_toNat, BitVec.setWidth_eq, BitVec.add_sub_cancel]

/-- The test of the first loop is that of the number of jobs. -/
theorem Pipeline.Counted.lt_batch_iff (hcounted : state.Counted bench) (hpc : state.pc = .fill) :
    state.totalIndex < bench.batchSize ↔ state.submitted.length < bench.batchSize.toNat := by
  simp only [Pipeline.Counted, hpc] at hcounted
  obtain ⟨hindex, hle, -⟩ := hcounted
  rw [BitVec.lt_def, hindex, BitVec.toNat_ofNat,
    Nat.mod_eq_of_lt (hle.trans_lt bench.batchSize.isLt)]

theorem BenchStep.ok (hstep : BenchStep bench state action next) (hok : state.Ok bench) :
    next.Ok bench := by
  obtain ⟨hcounted, hpolled, hcompleted⟩ := hok
  have hbatch := bench.batchSize.isLt
  cases hstep with
  | fill hpc hlt =>
      have hbelow := (hcounted.lt_batch_iff hpc).mp hlt
      simp only [Pipeline.Counted, hpc] at hcounted
      obtain ⟨hindex, hle, hzero⟩ := hcounted
      refine ⟨?_, hpolled, ?_⟩
      · simp only [Pipeline.Counted, Pipeline.enqueueJob, hpc, List.length_append,
          List.length_singleton]
        exact ⟨by rw [hindex, ofNat_succ], hbelow, hzero⟩
      · rw [length_enqueueJob]
        exact hcompleted.trans (Nat.le_succ _)
  | filled hpc hge =>
      rw [hcounted.lt_batch_iff hpc] at hge
      simp only [Pipeline.Counted, hpc] at hcounted
      obtain ⟨hindex, hle, hzero⟩ := hcounted
      have hfull : state.submitted.length = state.polled + bench.batchSize.toNat := by omega
      exact ⟨⟨hindex, hfull⟩, hpolled, hcompleted⟩
  | enter hpc hguard =>
      simp only [Pipeline.Counted, hpc] at hcounted
      exact ⟨hcounted, hpolled, hcompleted⟩
  | dequeue hpc hevent =>
      simp only [Pipeline.Counted, hpc] at hcounted
      refine ⟨⟨hcounted.1, ?_⟩, hevent, hcompleted⟩
      simp only [Pipeline.dequeueJob]
      omega
  | enqueue hpc =>
      simp only [Pipeline.Counted, hpc] at hcounted
      refine ⟨⟨?_, ?_⟩, hpolled, ?_⟩
      · rw [length_enqueueJob, hcounted.1, ofNat_succ]
      · rw [length_enqueueJob]
        exact hcounted.2
      · rw [length_enqueueJob]
        exact hcompleted.trans (Nat.le_succ _)
  | leave hpc hguard =>
      simp only [Pipeline.Counted, hpc] at hcounted
      exact ⟨⟨hcounted.1, hcounted.2, Nat.zero_le _⟩, hpolled, hcompleted⟩
  | drain hpc hlt hevent =>
      simp only [Pipeline.Counted, hpc] at hcounted
      obtain ⟨hindex, hcount, hle⟩ := hcounted
      have hbelow : state.drainIndex.toNat < bench.batchSize.toNat := hlt
      have hnext : (state.drainIndex + 1).toNat = state.drainIndex.toNat + 1 := by
        rw [BitVec.toNat_add]
        exact Nat.mod_eq_of_lt (by simp; omega)
      refine ⟨?_, hevent, hcompleted⟩
      simp only [Pipeline.Counted, Pipeline.dequeueJob, hpc, hnext]
      exact ⟨by rw [hindex, ofNat_succ, Nat.add_assoc], by omega, hbelow⟩
  | finish hpc hge =>
      simp only [Pipeline.Counted, hpc] at hcounted
      obtain ⟨hindex, hcount, hle⟩ := hcounted
      have habove : ¬ state.drainIndex.toNat < bench.batchSize.toNat := hge
      have hlast : state.drainIndex.toNat = bench.batchSize.toNat := by omega
      have hall : state.polled = state.submitted.length := by omega
      rw [hlast] at hindex
      exact ⟨⟨hindex, hall⟩, hpolled, hcompleted⟩
  | complete hpending =>
      exact ⟨hcounted, hpolled.trans (Nat.le_succ _), hpending⟩

theorem benchSystem_ok (hreach : (benchSystem bench).Reachable state) : state.Ok bench := by
  apply hreach.invariant
  · intro state hstart
    rw [hstart]
    exact ⟨⟨rfl, Nat.zero_le _, rfl⟩, le_rfl, le_rfl⟩
  · intro state action next _ hok hstep
    exact BenchStep.ok hstep hok

/-- No more than a batch of jobs is submitted and not dequeued. -/
theorem Pipeline.Ok.window (hok : state.Ok bench) :
    state.submitted.length ≤ state.polled + bench.batchSize.toNat := by
  have hcounted := hok.counted
  unfold Pipeline.Counted at hcounted
  split at hcounted <;> omega

end Counted

/-! ## Every number of rounds is possible -/

/-- Control is at a point, some jobs were submitted, and all of them are completed. -/
structure Pipeline.CaughtUp (state : Pipeline) (pc : BenchPc) (count : Nat) : Prop where
  pc : state.pc = pc
  submitted : state.submitted.length = count
  completed : state.completed = count

section Runs

variable {bench : JobBench}

theorem benchSystem_fill {count : Nat} (hcount : count ≤ bench.batchSize.toNat) :
    ∃ state, (benchSystem bench).Reachable state ∧ state.CaughtUp .fill count := by
  induction count with
  | zero => exact ⟨.init, .start rfl, rfl, rfl, rfl⟩
  | succ count ih =>
      obtain ⟨state, hreach, hpc, hsubmitted, hcompleted⟩ := ih (by omega)
      have hcounted := (benchSystem_ok hreach).counted
      simp only [Pipeline.Counted, hpc] at hcounted
      have hlt : state.totalIndex < bench.batchSize := by
        rw [BitVec.lt_def, hcounted.1, hsubmitted, BitVec.toNat_ofNat]
        exact (Nat.mod_le _ _).trans_lt hcount
      have hfill := hreach.step (BenchStep.fill hpc hlt)
      have hcomplete := hfill.step (BenchStep.complete (by
        simp [Pipeline.enqueueJob, hsubmitted, hcompleted]))
      refine ⟨_, hcomplete, hpc, ?_, ?_⟩
      · simp [Pipeline.enqueueJob, hsubmitted]
      · simp [Pipeline.enqueueJob, hcompleted]

/-- The middle loop, as long as its test lets it go on. -/
theorem benchSystem_head {rounds : Nat} (hbatch : 1 ≤ bench.batchSize.toNat)
    (hguard : ∀ round < rounds,
      bench.guard.Continues (BitVec.ofNat 64 (bench.batchSize.toNat + round))) :
    ∃ state, (benchSystem bench).Reachable state ∧
      state.CaughtUp .head (bench.batchSize.toNat + rounds) := by
  induction rounds with
  | zero =>
      obtain ⟨state, hreach, hpc, hsubmitted, hcompleted⟩ :=
        benchSystem_fill (Nat.le_refl bench.batchSize.toNat)
      have hcounted := (benchSystem_ok hreach).counted
      simp only [Pipeline.Counted, hpc] at hcounted
      have hge : ¬ state.totalIndex < bench.batchSize := by
        rw [hcounted.1, hsubmitted, BitVec.ofNat_toNat, BitVec.setWidth_eq]
        exact BitVec.lt_irrefl _
      exact ⟨_, hreach.step (BenchStep.filled hpc hge), rfl, hsubmitted, hcompleted⟩
  | succ rounds ih =>
      obtain ⟨state, hreach, hpc, hsubmitted, hcompleted⟩ :=
        ih fun round hround => hguard round (by omega)
      have hcounted := (benchSystem_ok hreach).counted
      simp only [Pipeline.Counted, hpc] at hcounted
      have hcontinues := hguard rounds (Nat.lt_succ_self _)
      rw [← hsubmitted, ← hcounted.1] at hcontinues
      have henter := hreach.step (BenchStep.enter hpc hcontinues)
      have hdequeue := henter.step (BenchStep.dequeue rfl
        (show state.polled < state.completed by omega))
      have henqueue := hdequeue.step (BenchStep.enqueue rfl)
      have hcomplete := henqueue.step (BenchStep.complete (by
        simp [Pipeline.enqueueJob, Pipeline.dequeueJob, hsubmitted, hcompleted]))
      refine ⟨_, hcomplete, rfl, ?_, ?_⟩
      · simp [Pipeline.enqueueJob, Pipeline.dequeueJob, hsubmitted, Nat.add_assoc]
      · simp [Pipeline.enqueueJob, Pipeline.dequeueJob, hcompleted, Nat.add_assoc]

theorem benchSystem_drain {state : Pipeline} {count drained : Nat}
    (hreach : (benchSystem bench).Reachable state) (hcaught : state.CaughtUp .head count)
    (hguard : bench.guard.Stops state.totalIndex) (hdrained : drained ≤ bench.batchSize.toNat) :
    ∃ state, (benchSystem bench).Reachable state ∧ state.CaughtUp .drain count ∧
      state.drainIndex.toNat = drained := by
  induction drained with
  | zero =>
      exact ⟨_, hreach.step (BenchStep.leave hcaught.pc hguard),
        ⟨rfl, hcaught.submitted, hcaught.completed⟩, rfl⟩
  | succ drained ih =>
      obtain ⟨state, hreach, hcaught, hindex⟩ := ih (by omega)
      have hcounted := (benchSystem_ok hreach).counted
      simp only [Pipeline.Counted, hcaught.pc] at hcounted
      have hbatch := bench.batchSize.isLt
      have hsubmitted := hcaught.submitted
      have hcompleted := hcaught.completed
      have hdrain := hreach.step (BenchStep.drain hcaught.pc (by rw [BitVec.lt_def]; omega)
        (by omega))
      refine ⟨_, hdrain, ⟨hcaught.pc, hsubmitted, hcompleted⟩, ?_⟩
      change (state.drainIndex + 1).toNat = _
      rw [BitVec.toNat_add, hindex]
      exact Nat.mod_eq_of_lt (by simp; omega)

/-- A whole run with a given number of rounds of the middle loop. -/
theorem benchSystem_done (bench : JobBench) (rounds : Nat) (hbatch : 1 ≤ bench.batchSize.toNat)
    (hguard : ∀ round < rounds,
      bench.guard.Continues (BitVec.ofNat 64 (bench.batchSize.toNat + round)))
    (hstops : bench.guard.Stops (BitVec.ofNat 64 (bench.batchSize.toNat + rounds))) :
    ∃ state, (benchSystem bench).Reachable state ∧
      state.CaughtUp .done (bench.batchSize.toNat + rounds) := by
  obtain ⟨state, hreach, hcaught⟩ := benchSystem_head hbatch hguard
  have hcounted := (benchSystem_ok hreach).counted
  simp only [Pipeline.Counted, hcaught.pc] at hcounted
  rw [← hcaught.submitted, ← hcounted.1] at hstops
  obtain ⟨state, hreach, hdrain, hindex⟩ := benchSystem_drain hreach hcaught hstops le_rfl
  have hge : ¬ state.drainIndex < bench.batchSize := by
    rw [BitVec.lt_def]
    omega
  exact ⟨_, hreach.step (BenchStep.finish hdrain.pc hge), rfl, hdrain.submitted,
    hdrain.completed⟩

end Runs

end BenchBF3.Jobs
