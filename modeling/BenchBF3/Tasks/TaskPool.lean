import Mathlib.Data.Finset.Card
import Mathlib.Order.Interval.Finset.Nat
import BenchBF3.Foundation.System

/-! # A pool of tasks that callbacks submit again

The DMA importer and the RDMA receiver create a batch of tasks, submit all of
them, and let the completion callback submit a finished task again. Both leave
their polling loop when the runner stops and delete the tasks. The importer's
callback looks at the stop flag first, and the importer waits until nothing is
in flight; the receiver does neither. The two are one system with a policy.

The library accepts every buffer and task here. A run in which it refuses one ends
there with an exception and is, up to that point, a run of this system.
-/

namespace BenchBF3.Tasks

open Foundation

structure PoolConfig where
  batchSize : BitVec 32
  payload : BitVec 32

/-- What the two programs do differently. -/
structure PoolPolicy where
  /-- Whether the callback submits the task again, by the stop flag. -/
  resubmits : Bool → Bool
  /-- Whether the callback counts a finished operation. -/
  counts : Bool
  /-- Whether the tasks in flight are waited for. -/
  drains : Bool

def importerPolicy : PoolPolicy where
  resubmits stopFlag := !stopFlag
  counts := true
  drains := true

def receiverPolicy : PoolPolicy where
  resubmits _ := true
  counts := false
  drains := false

inductive PoolPc
  | post (index : Nat)
  | poll
  | drain
  | delete (index : Nat)
  | done
  deriving DecidableEq, Repr

/-- The main thread: it starts the workers before it sets `is_running`, and it
sets the stop flag before it calls `stop`. -/
inductive RunnerPhase
  | starting
  | running
  | expired
  | stopped
  deriving DecidableEq, Repr

def RunnerPhase.isRunning : RunnerPhase → Bool
  | .starting => false
  | .running => true
  | .expired => true
  | .stopped => false

/-- A worker with its tasks: those the engine has, and those whose objects and
buffers exist. `completed` counts the callbacks. -/
structure TaskPool where
  pc : PoolPc
  inFlight : Finset Nat
  live : Finset Nat
  numOpsFinished : BitVec 64
  completed : Nat
  phase : RunnerPhase
  stopFlag : Bool

namespace TaskPool

def init : TaskPool where
  pc := .post 0
  inFlight := ∅
  live := ∅
  numOpsFinished := 0
  completed := 0
  phase := .starting
  stopFlag := false

/-- A round of the posting loop: the buffers and the task are created, and the task
is submitted. -/
def postOne (pool : TaskPool) (index : Nat) : TaskPool :=
  { pool with
    pc := .post (index + 1)
    live := insert index pool.live
    inFlight := insert index pool.inFlight }

def completeCallback (policy : PoolPolicy) (pool : TaskPool) (taskIndex : Nat) : TaskPool :=
  let left := pool.inFlight.erase taskIndex
  { pool with
    completed := pool.completed + 1
    numOpsFinished := if policy.counts then pool.numOpsFinished + 1 else pool.numOpsFinished
    inFlight := if policy.resubmits pool.stopFlag then insert taskIndex left else left }

def deleteOne (pool : TaskPool) (index : Nat) : TaskPool :=
  { pool with pc := .delete (index + 1), live := pool.live.erase index }

@[simp] theorem completeCallback_pc (policy : PoolPolicy) (pool : TaskPool) (taskIndex : Nat) :
    (pool.completeCallback policy taskIndex).pc = pool.pc := rfl

theorem completeCallback_of_resubmits {policy : PoolPolicy} {pool : TaskPool} {taskIndex : Nat}
    (hagain : policy.resubmits pool.stopFlag = true) (htask : taskIndex ∈ pool.inFlight) :
    (pool.completeCallback policy taskIndex).inFlight = pool.inFlight := by
  rw [← Finset.insert_erase htask]
  exact if_pos hagain

theorem completeCallback_of_not_resubmits {policy : PoolPolicy} {pool : TaskPool} {taskIndex : Nat}
    (honce : policy.resubmits pool.stopFlag = false) :
    (pool.completeCallback policy taskIndex).inFlight = pool.inFlight.erase taskIndex :=
  if_neg (ne_true_of_eq_false honce)

end TaskPool

inductive PoolAction
  | post
  | posted
  | complete
  | leave
  | drained
  | delete
  | finish
  | run
  | interrupt
  | expire
  | stop
  deriving DecidableEq, Repr

def PoolConfig.size (config : PoolConfig) : Nat := config.batchSize.toNat

inductive PoolStep (config : PoolConfig) (policy : PoolPolicy) :
    TaskPool → PoolAction → TaskPool → Prop
  | post {pool : TaskPool} {index : Nat} (hpc : pool.pc = .post index)
      (hindex : index < config.size) : PoolStep config policy pool .post (pool.postOne index)
  | posted {pool : TaskPool} {index : Nat} (hpc : pool.pc = .post index)
      (hindex : ¬ index < config.size) :
      PoolStep config policy pool .posted { pool with pc := .poll }
  /-- The engine runs callbacks only while it is polled. -/
  | complete {pool : TaskPool} {taskIndex : Nat} (hpc : pool.pc = .poll ∨ pool.pc = .drain)
      (htask : taskIndex ∈ pool.inFlight) :
      PoolStep config policy pool .complete (pool.completeCallback policy taskIndex)
  | leave {pool : TaskPool} (hpc : pool.pc = .poll) (hrunning : pool.phase.isRunning = false) :
      PoolStep config policy pool .leave
        { pool with pc := if policy.drains then .drain else .delete 0 }
  /-- The drain loop polls while `get_num_inflight` is positive. -/
  | drained {pool : TaskPool} (hpc : pool.pc = .drain) (hnone : ¬ 0 < pool.inFlight.card) :
      PoolStep config policy pool .drained { pool with pc := .delete 0 }
  | delete {pool : TaskPool} {index : Nat} (hpc : pool.pc = .delete index)
      (hindex : index < config.size) : PoolStep config policy pool .delete (pool.deleteOne index)
  | finish {pool : TaskPool} {index : Nat} (hpc : pool.pc = .delete index)
      (hindex : ¬ index < config.size) :
      PoolStep config policy pool .finish { pool with pc := .done }
  | run {pool : TaskPool} (hphase : pool.phase = .starting) :
      PoolStep config policy pool .run { pool with phase := .running }
  | interrupt {pool : TaskPool} :
      PoolStep config policy pool .interrupt { pool with stopFlag := true }
  | expire {pool : TaskPool} (hphase : pool.phase = .running) :
      PoolStep config policy pool .expire { pool with phase := .expired, stopFlag := true }
  | stop {pool : TaskPool} (hphase : pool.phase = .expired) :
      PoolStep config policy pool .stop { pool with phase := .stopped }

def poolSystem (config : PoolConfig) (policy : PoolPolicy) : System TaskPool PoolAction where
  start pool := pool = .init
  step := PoolStep config policy

/-! ## What both programs keep -/

/-- The objects that exist at a point of the program. -/
def PoolPc.Lives (size : Nat) : PoolPc → Finset Nat → Finset Nat → Prop
  | .post index, inFlight, live =>
      index ≤ size ∧ inFlight = Finset.range index ∧ live = Finset.range index
  | .poll, inFlight, live => inFlight ⊆ Finset.range size ∧ live = Finset.range size
  | .drain, inFlight, live => inFlight ⊆ Finset.range size ∧ live = Finset.range size
  | .delete index, inFlight, live =>
      index ≤ size ∧ inFlight ⊆ Finset.range size ∧ live = Finset.Ico index size
  | .done, inFlight, live => inFlight ⊆ Finset.range size ∧ live = ∅

structure TaskPool.Ok (config : PoolConfig) (policy : PoolPolicy) (pool : TaskPool) : Prop where
  lives : pool.pc.Lives config.size pool.inFlight pool.live
  counted : policy.counts = true → pool.numOpsFinished = BitVec.ofNat 64 pool.completed
  flagged : pool.phase = .expired ∨ pool.phase = .stopped → pool.stopFlag = true

section Steps

variable {config : PoolConfig} {policy : PoolPolicy} {pool next : TaskPool} {action : PoolAction}

theorem PoolPc.Lives.subset {size : Nat} {pc : PoolPc} {inFlight live : Finset Nat}
    (hlives : pc.Lives size inFlight live) : inFlight ⊆ Finset.range size := by
  cases pc with
  | post index =>
      obtain ⟨hindex, rfl, -⟩ := hlives
      exact Finset.range_subset_range.mpr hindex
  | poll => exact hlives.1
  | drain => exact hlives.1
  | delete index => exact hlives.2.1
  | done => exact hlives.1

theorem TaskPool.completeCallback_subset (policy : PoolPolicy) {taskIndex : Nat}
    (htask : taskIndex ∈ pool.inFlight) :
    (pool.completeCallback policy taskIndex).inFlight ⊆ pool.inFlight := by
  cases hagain : policy.resubmits pool.stopFlag with
  | true => exact (completeCallback_of_resubmits hagain htask).subset
  | false =>
      rw [completeCallback_of_not_resubmits hagain]
      exact Finset.erase_subset _ _

theorem TaskPool.Ok.complete (hok : pool.Ok config policy) {taskIndex : Nat}
    (hpc : pool.pc = .poll ∨ pool.pc = .drain) (htask : taskIndex ∈ pool.inFlight) :
    (pool.completeCallback policy taskIndex).Ok config policy where
  lives := by
    have hlives := hok.lives
    have hsubset := (TaskPool.completeCallback_subset policy htask).trans hlives.subset
    rw [TaskPool.completeCallback_pc]
    rcases hpc with hpc | hpc <;> rw [hpc] at hlives ⊢ <;> exact ⟨hsubset, hlives.2⟩
  counted := by
    intro hcounts
    have hone : BitVec.ofNat 64 (pool.completed + 1) = BitVec.ofNat 64 pool.completed + 1 :=
      BitVec.ofNat_add _ _
    rw [TaskPool.completeCallback]
    simp only [hcounts, if_true, hone, hok.counted hcounts]
  flagged := hok.flagged

theorem PoolStep.ok (hstep : PoolStep config policy pool action next)
    (hok : pool.Ok config policy) : next.Ok config policy := by
  have hlives := hok.lives
  cases hstep with
  | @post index hpc hindex =>
      rw [hpc] at hlives
      obtain ⟨-, hflight, hlive⟩ := hlives
      refine ⟨⟨hindex, ?_, ?_⟩, hok.counted, hok.flagged⟩
      · rw [TaskPool.postOne, hflight, Finset.range_add_one]
      · rw [TaskPool.postOne, hlive, Finset.range_add_one]
  | @posted index hpc hindex =>
      rw [hpc] at hlives
      obtain ⟨hle, hflight, hlive⟩ := hlives
      obtain rfl : index = config.size := Nat.le_antisymm hle (Nat.le_of_not_gt hindex)
      exact ⟨⟨hflight.subset, hlive⟩, hok.counted, hok.flagged⟩
  | complete hpc htask => exact hok.complete hpc htask
  | leave hpc hrunning =>
      rw [hpc] at hlives
      refine ⟨?_, hok.counted, hok.flagged⟩
      cases hdrains : policy.drains with
      | true => exact hlives
      | false => exact ⟨Nat.zero_le _, hlives.1, hlives.2.trans (Finset.range_eq_Ico _)⟩
  | drained hpc hnone =>
      rw [hpc] at hlives
      exact ⟨⟨Nat.zero_le _, hlives.1, hlives.2.trans (Finset.range_eq_Ico _)⟩, hok.counted,
        hok.flagged⟩
  | @delete index hpc hindex =>
      rw [hpc] at hlives
      obtain ⟨-, hflight, hlive⟩ := hlives
      refine ⟨⟨hindex, hflight, ?_⟩, hok.counted, hok.flagged⟩
      rw [TaskPool.deleteOne, hlive, Finset.Ico_erase_left]
      ext task
      rw [Finset.mem_Ioo, Finset.mem_Ico, Nat.succ_le_iff]
  | @finish index hpc hindex =>
      rw [hpc] at hlives
      obtain ⟨-, hflight, hlive⟩ := hlives
      exact ⟨⟨hflight, hlive.trans (Finset.Ico_eq_empty hindex)⟩, hok.counted, hok.flagged⟩
  | run hphase => exact ⟨hlives, hok.counted, by simp⟩
  | interrupt => exact ⟨hlives, hok.counted, fun _ => rfl⟩
  | expire hphase => exact ⟨hlives, hok.counted, fun _ => rfl⟩
  | stop hphase => exact ⟨hlives, hok.counted, fun _ => hok.flagged (.inl hphase)⟩

theorem poolSystem_ok (hreach : (poolSystem config policy).Reachable pool) :
    pool.Ok config policy := by
  apply hreach.invariant
  · rintro _ rfl
    exact ⟨⟨Nat.zero_le _, rfl, rfl⟩, fun _ => rfl, by simp [TaskPool.init]⟩
  · intro _ _ _ _ hok hstep
    exact PoolStep.ok hstep hok

/-! ## The importer -/

/-- The engine has nothing once the tasks are being deleted. -/
def PoolPc.Quiet (inFlight : Finset Nat) : PoolPc → Prop
  | .delete _ => inFlight = ∅
  | .done => inFlight = ∅
  | _ => True

theorem PoolStep.quiet (hdrains : policy.drains = true)
    (hstep : PoolStep config policy pool action next) (hquiet : pool.pc.Quiet pool.inFlight) :
    next.pc.Quiet next.inFlight := by
  cases hstep with
  | post hpc hindex => trivial
  | posted hpc hindex => trivial
  | complete hpc htask =>
      rw [TaskPool.completeCallback_pc]
      rcases hpc with hpc | hpc <;> rw [hpc] <;> trivial
  | leave hpc hrunning =>
      rw [hdrains]
      trivial
  | drained hpc hnone => exact Finset.card_eq_zero.mp (Nat.eq_zero_of_not_pos hnone)
  | delete hpc hindex =>
      rw [hpc] at hquiet
      exact hquiet
  | finish hpc hindex =>
      rw [hpc] at hquiet
      exact hquiet
  | run hphase => exact hquiet
  | interrupt => exact hquiet
  | expire hphase => exact hquiet
  | stop hphase => exact hquiet

theorem poolSystem_quiet (hdrains : policy.drains = true)
    (hreach : (poolSystem config policy).Reachable pool) : pool.pc.Quiet pool.inFlight := by
  apply hreach.invariant
  · rintro _ rfl
    trivial
  · intro _ _ _ _ hquiet hstep
    exact PoolStep.quiet hdrains hstep hquiet

/-- What the engine has still exists. -/
theorem TaskPool.Ok.inFlight_subset_live (hok : pool.Ok config policy)
    (hquiet : pool.pc.Quiet pool.inFlight) : pool.inFlight ⊆ pool.live := by
  have hlives := hok.lives
  cases hpc : pool.pc with
  | post index =>
      rw [hpc] at hlives
      exact (hlives.2.1.trans hlives.2.2.symm).subset
  | poll =>
      rw [hpc] at hlives
      exact hlives.1.trans hlives.2.symm.subset
  | drain =>
      rw [hpc] at hlives
      exact hlives.1.trans hlives.2.symm.subset
  | delete index =>
      rw [hpc] at hquiet
      exact hquiet.subset.trans (Finset.empty_subset _)
  | done =>
      rw [hpc] at hquiet
      exact hquiet.subset.trans (Finset.empty_subset _)

def PoolPc.posting : PoolPc → Bool
  | .post _ => true
  | _ => false

/-- With the stop flag set, a callback takes its task out of flight for good. -/
theorem PoolStep.conserved (hstep : PoolStep config importerPolicy pool action next)
    (hstop : pool.stopFlag = true) (hpc : pool.pc.posting = false) :
    next.completed + next.inFlight.card = pool.completed + pool.inFlight.card ∧
      next.stopFlag = true ∧ next.pc.posting = false := by
  cases hstep with
  | post hpost hindex =>
      rw [hpost] at hpc
      cases hpc
  | posted hpost hindex =>
      rw [hpost] at hpc
      cases hpc
  | complete hpoll htask =>
      refine ⟨?_, hstop, hpc⟩
      have honce : importerPolicy.resubmits pool.stopFlag = false := by
        rw [hstop]
        rfl
      rw [TaskPool.completeCallback_of_not_resubmits honce, Finset.card_erase_of_mem htask]
      have hpos := Finset.card_pos.mpr ⟨_, htask⟩
      change pool.completed + 1 + (pool.inFlight.card - 1) = _
      omega
  | leave hpoll hrunning => exact ⟨rfl, hstop, rfl⟩
  | drained hdrain hnone => exact ⟨rfl, hstop, rfl⟩
  | delete hdelete hindex => exact ⟨rfl, hstop, rfl⟩
  | finish hdelete hindex => exact ⟨rfl, hstop, rfl⟩
  | run hphase => exact ⟨rfl, hstop, hpc⟩
  | interrupt => exact ⟨rfl, rfl, hpc⟩
  | expire hphase => exact ⟨rfl, rfl, hpc⟩
  | stop hphase => exact ⟨rfl, hstop, hpc⟩

theorem path_conserved {final : TaskPool}
    (hpath : (poolSystem config importerPolicy).Path pool final) (hstop : pool.stopFlag = true)
    (hpc : pool.pc.posting = false) :
    final.completed + final.inFlight.card = pool.completed + pool.inFlight.card ∧
      final.stopFlag = true ∧ final.pc.posting = false := by
  induction hpath with
  | refl => exact ⟨rfl, hstop, hpc⟩
  | step prior hstep ih =>
      obtain ⟨hsum, hstop', hpc'⟩ := ih
      obtain ⟨hsum', hnext⟩ := PoolStep.conserved hstep hstop' hpc'
      exact ⟨hsum'.trans hsum, hnext⟩

/-- Rounds of the posting loop. -/
theorem posting_path {index count : Nat} (hpc : pool.pc = .post index)
    (hcount : index + count ≤ config.size) :
    ∃ final, (poolSystem config policy).Path pool final ∧ final.pc = .post (index + count) ∧
      final.phase = pool.phase ∧ final.stopFlag = pool.stopFlag := by
  induction count with
  | zero => exact ⟨pool, .refl pool, hpc, rfl, rfl⟩
  | succ count ih =>
      obtain ⟨final, hpath, hpost, hphase, hstop⟩ := ih (by omega)
      exact ⟨_, hpath.step (PoolStep.post hpost (by omega)), rfl, hphase, hstop⟩

/-- The posting loop comes to its end. -/
theorem post_path {index : Nat} (hpc : pool.pc = .post index) (hindex : index ≤ config.size) :
    ∃ final, (poolSystem config policy).Path pool final ∧ final.pc = .poll ∧
      final.phase = pool.phase ∧ final.stopFlag = pool.stopFlag := by
  obtain ⟨final, hpath, hpost, hphase, hstop⟩ := @posting_path config policy pool index
    (config.size - index) hpc (Nat.add_sub_cancel' hindex).le
  exact ⟨_, hpath.step (PoolStep.posted hpost (by omega)), rfl, hphase, hstop⟩

/-- The deletions come to their end. -/
theorem delete_path {index count : Nat} (hpc : pool.pc = .delete index)
    (hcount : index + count = config.size) :
    ∃ final, (poolSystem config policy).Path pool final ∧ final.pc = .done := by
  induction count generalizing pool index with
  | zero =>
      exact ⟨_, .single (PoolStep.finish hpc (by omega)), rfl⟩
  | succ count ih =>
      have hstep : (poolSystem config policy).step pool .delete (pool.deleteOne index) :=
        PoolStep.delete hpc (by omega)
      obtain ⟨final, hpath, hdone⟩ := @ih (pool.deleteOne index) (index + 1) rfl (by omega)
      exact ⟨final, (System.Path.single hstep).trans hpath, hdone⟩

/-- The runner can stop while the worker polls, under any policy. -/
theorem stopped_reachable (config : PoolConfig) (policy : PoolPolicy) : ∃ pool,
    (poolSystem config policy).Reachable pool ∧ pool.pc = .poll ∧ pool.phase = .stopped := by
  have hstart : (poolSystem config policy).Reachable .init := .start rfl
  have hrun : (poolSystem config policy).Reachable { TaskPool.init with phase := .running } :=
    hstart.step (PoolStep.run rfl)
  obtain ⟨polled, hposts, hpoll, hphase, -⟩ := @post_path config policy
    { TaskPool.init with phase := .running } 0 rfl (Nat.zero_le _)
  have hexpired : (poolSystem config policy).Reachable
      { polled with phase := .expired, stopFlag := true } :=
    (hrun.path hposts).step (PoolStep.expire hphase)
  exact ⟨_, hexpired.step (PoolStep.stop rfl), hpoll, rfl⟩

/-- With the stop flag set the drain loop can always run to its end. -/
theorem drain_path {count : Nat} (hpc : pool.pc = .drain) (hstop : pool.stopFlag = true)
    (hcount : pool.inFlight.card = count) :
    ∃ final, (poolSystem config importerPolicy).Path pool final ∧ final.pc = .done := by
  induction count generalizing pool with
  | zero =>
      have hstep : (poolSystem config importerPolicy).step pool .drained
          { pool with pc := .delete 0 } := PoolStep.drained hpc (by omega)
      obtain ⟨final, hpath, hdone⟩ := @delete_path config importerPolicy
        { pool with pc := .delete 0 } 0 config.size rfl (Nat.zero_add _)
      exact ⟨final, (System.Path.single hstep).trans hpath, hdone⟩
  | succ count ih =>
      obtain ⟨taskIndex, htask⟩ := Finset.card_pos.mp (by omega : 0 < pool.inFlight.card)
      have hstep : (poolSystem config importerPolicy).step pool .complete
          (pool.completeCallback importerPolicy taskIndex) := PoolStep.complete (.inr hpc) htask
      have hsum := (PoolStep.conserved hstep hstop (by rw [hpc]; rfl)).1
      have hone : (pool.completeCallback importerPolicy taskIndex).completed =
          pool.completed + 1 := rfl
      obtain ⟨final, hpath, hdone⟩ := @ih (pool.completeCallback importerPolicy taskIndex) hpc hstop
        (by omega)
      exact ⟨final, (System.Path.single hstep).trans hpath, hdone⟩

theorem poll_path (hpc : pool.pc = .poll) (hphase : pool.phase = .stopped)
    (hstop : pool.stopFlag = true) :
    ∃ final, (poolSystem config importerPolicy).Path pool final ∧ final.pc = .done := by
  have hstep : (poolSystem config importerPolicy).step pool .leave { pool with pc := .drain } :=
    PoolStep.leave hpc (by rw [hphase]; rfl)
  obtain ⟨final, hpath, hdone⟩ :=
    @drain_path config { pool with pc := .drain } _ rfl hstop rfl
  exact ⟨final, (System.Path.single hstep).trans hpath, hdone⟩

/-- In every run of the importer a task that the engine has still exists, the
finished operations are the callbacks, and at the end everything is deleted. -/
theorem importer_tasks_outlive (hreach : (poolSystem config importerPolicy).Reachable pool) :
    pool.inFlight ⊆ pool.live ∧ pool.numOpsFinished = BitVec.ofNat 64 pool.completed ∧
      (pool.pc = .done → pool.live = ∅ ∧ pool.inFlight = ∅) := by
  have hok := poolSystem_ok hreach
  have hquiet := poolSystem_quiet rfl hreach
  refine ⟨hok.inFlight_subset_live hquiet, hok.counted rfl, ?_⟩
  intro hpc
  have hlives := hok.lives
  rw [hpc] at hlives hquiet
  exact ⟨hlives.2, hquiet⟩

/-- Once the runner has stopped the importer can always finish, and after its
posting loop no more callbacks run than there are tasks in flight. -/
theorem importer_drains (hreach : (poolSystem config importerPolicy).Reachable pool)
    (hphase : pool.phase = .stopped) :
    (pool.pc.posting = false → ∀ final, (poolSystem config importerPolicy).Path pool final →
      final.completed ≤ pool.completed + pool.inFlight.card) ∧
    ∃ final, (poolSystem config importerPolicy).Path pool final ∧ final.pc = .done := by
  have hok := poolSystem_ok hreach
  have hstop := hok.flagged (.inr hphase)
  constructor
  · intro hpc final hpath
    have hsum := (path_conserved hpath hstop hpc).1
    omega
  · have hlives := hok.lives
    cases hpc : pool.pc with
    | post index =>
        rw [hpc] at hlives
        obtain ⟨polled, hposts, hpoll, hphase', hstop'⟩ :=
          @post_path config importerPolicy pool index hpc hlives.1
        obtain ⟨final, hpath, hdone⟩ := @poll_path config polled hpoll (hphase'.trans hphase)
          (hstop'.trans hstop)
        exact ⟨final, hposts.trans hpath, hdone⟩
    | poll => exact poll_path hpc hphase hstop
    | drain => exact drain_path hpc hstop rfl
    | delete index =>
        rw [hpc] at hlives
        exact delete_path hpc (Nat.add_sub_cancel' hlives.1)
    | done => exact ⟨pool, .refl pool, hpc⟩

/-- Two tasks of 64 bytes. -/
def twoCopies : PoolConfig := ⟨2, 64⟩

theorem importer_drains_twoCopies : ∃ pool,
    (poolSystem twoCopies importerPolicy).Reachable pool ∧ pool.phase = .stopped ∧
      ∃ final, (poolSystem twoCopies importerPolicy).Path pool final ∧ final.pc = .done := by
  obtain ⟨pool, hreach, -, hphase⟩ := stopped_reachable twoCopies importerPolicy
  exact ⟨pool, hreach, hphase, (importer_drains hreach hphase).2⟩

theorem importer_tasks_outlive_twoCopies : ∃ pool,
    (poolSystem twoCopies importerPolicy).Reachable pool ∧ pool.live = ∅ ∧ pool.inFlight = ∅ := by
  obtain ⟨pool, hreach, hpoll, hphase⟩ := stopped_reachable twoCopies importerPolicy
  obtain ⟨final, hpath, hdone⟩ :=
    @poll_path twoCopies pool hpoll hphase ((poolSystem_ok hreach).flagged (.inr hphase))
  exact ⟨final, hreach.path hpath, (importer_tasks_outlive (hreach.path hpath)).2.2 hdone⟩

/-! ## The receiver -/

/-- The receiver's tasks never leave the engine. -/
theorem PoolStep.busy (hstep : PoolStep config receiverPolicy pool action next)
    (hok : pool.Ok config receiverPolicy)
    (hbusy : pool.pc.posting = false → pool.inFlight = Finset.range config.size) :
    next.pc.posting = false → next.inFlight = Finset.range config.size := by
  have hlives := hok.lives
  cases hstep with
  | post hpc hindex => simp [TaskPool.postOne, PoolPc.posting]
  | @posted index hpc hindex =>
      intro _
      rw [hpc] at hlives
      obtain rfl : index = config.size := Nat.le_antisymm hlives.1 (Nat.le_of_not_gt hindex)
      exact hlives.2.1
  | complete hpc htask =>
      intro hposting
      rw [TaskPool.completeCallback_of_resubmits rfl htask]
      exact hbusy hposting
  | leave hpc hrunning => exact fun _ => hbusy (by rw [hpc]; rfl)
  | drained hpc hnone => exact fun _ => hbusy (by rw [hpc]; rfl)
  | delete hpc hindex => exact fun _ => hbusy (by rw [hpc]; rfl)
  | finish hpc hindex => exact fun _ => hbusy (by rw [hpc]; rfl)
  | run hphase => exact hbusy
  | interrupt => exact hbusy
  | expire hphase => exact hbusy
  | stop hphase => exact hbusy

theorem receiver_busy (hreach : (poolSystem config receiverPolicy).Reachable pool) :
    pool.pc.posting = false → pool.inFlight = Finset.range config.size := by
  apply hreach.invariant
  · rintro _ rfl hposting
    cases hposting
  · intro _ _ _ hprior hbusy hstep
    exact PoolStep.busy hstep (poolSystem_ok hprior) hbusy

/-- How many tasks the loop at the end has deleted. -/
def PoolPc.deleted (size : Nat) : PoolPc → Nat
  | .delete index => index
  | .done => size
  | _ => 0

theorem TaskPool.Ok.inFlight_sdiff_live (hok : pool.Ok config policy)
    (hbusy : pool.pc.posting = false → pool.inFlight = Finset.range config.size) :
    pool.inFlight \ pool.live = Finset.range (pool.pc.deleted config.size) := by
  have hlives := hok.lives
  cases hpc : pool.pc with
  | post index =>
      rw [hpc] at hlives
      rw [hlives.2.1, hlives.2.2, Finset.sdiff_self]
      rfl
  | poll =>
      rw [hpc] at hlives hbusy
      rw [hbusy rfl, hlives.2, Finset.sdiff_self]
      rfl
  | drain =>
      rw [hpc] at hlives hbusy
      rw [hbusy rfl, hlives.2, Finset.sdiff_self]
      rfl
  | delete index =>
      rw [hpc] at hlives hbusy
      rw [hbusy rfl, hlives.2.2]
      ext task
      have hle := hlives.1
      simp only [Finset.mem_sdiff, Finset.mem_range, Finset.mem_Ico, PoolPc.deleted]
      omega
  | done =>
      rw [hpc] at hlives hbusy
      rw [hbusy rfl, hlives.2, Finset.sdiff_empty]
      rfl

/-- A receiver that is stopped deletes all its tasks. -/
theorem receiver_done (config : PoolConfig) : ∃ pool,
    (poolSystem config receiverPolicy).Reachable pool ∧ pool.pc = .done := by
  obtain ⟨pool, hreach, hpoll, hphase⟩ := stopped_reachable config receiverPolicy
  have hleft : (poolSystem config receiverPolicy).Reachable { pool with pc := .delete 0 } :=
    hreach.step (PoolStep.leave hpoll (by rw [hphase]; rfl))
  obtain ⟨final, hpath, hdone⟩ := @delete_path config receiverPolicy
    { pool with pc := .delete 0 } 0 config.size rfl (Nat.zero_add _)
  exact ⟨final, hleft.path hpath, hdone⟩

/-- The receiver deletes every task while the engine has it, in every run, and
runs that delete all of them exist. -/
theorem receiver_deletes_inFlight (config : PoolConfig) :
    (∀ pool, (poolSystem config receiverPolicy).Reachable pool →
      pool.inFlight \ pool.live = Finset.range (pool.pc.deleted config.size)) ∧
    ∃ pool, (poolSystem config receiverPolicy).Reachable pool ∧ pool.pc = .done := by
  refine ⟨?_, receiver_done config⟩
  intro pool hreach
  exact (poolSystem_ok hreach).inFlight_sdiff_live (receiver_busy hreach)

/-! ## The ranges of the tasks -/

/-- Where the range of a task starts; the product has 64 bits. -/
def PoolConfig.offset (config : PoolConfig) (index : Nat) : BitVec 64 :=
  BitVec.ofNat 64 index * config.payload.setWidth 64

/-- The size of the buffer that both programs allocate: a product of 32 bits. -/
def PoolConfig.allocated (config : PoolConfig) : BitVec 64 :=
  (config.batchSize * config.payload).setWidth 64

theorem PoolConfig.toNat_offset {index : Nat} (hindex : index < config.size) :
    (config.offset index).toNat = index * config.payload.toNat := by
  have hsize : config.size < 2 ^ 32 := config.batchSize.isLt
  have hproduct : index * config.payload.toNat < 2 ^ 32 * 2 ^ 32 :=
    Nat.mul_lt_mul'' (hindex.trans hsize) config.payload.isLt
  rw [PoolConfig.offset, BitVec.toNat_mul, BitVec.toNat_ofNat,
    BitVec.toNat_setWidth_of_le (by decide), Nat.mod_eq_of_lt (by omega : index < 2 ^ 64)]
  exact Nat.mod_eq_of_lt hproduct

theorem PoolConfig.toNat_allocated :
    config.allocated.toNat = config.size * config.payload.toNat % 2 ^ 32 := by
  rw [PoolConfig.allocated, BitVec.toNat_setWidth_of_le (by decide), BitVec.toNat_mul]
  rfl

/-- The range that a task asks for lies in the buffer. -/
def PoolConfig.InRange (config : PoolConfig) (index : Nat) : Prop :=
  (config.offset index).toNat + config.payload.toNat ≤ config.allocated.toNat

theorem PoolConfig.inRange_of_fits (hfits : config.size * config.payload.toNat < 2 ^ 32)
    {index : Nat} (hindex : index < config.size) : config.InRange index := by
  rw [InRange, toNat_offset hindex, toNat_allocated, Nat.mod_eq_of_lt hfits, ← Nat.succ_mul]
  exact Nat.mul_le_mul_right _ hindex

/-- The last range ends last. -/
theorem PoolConfig.fits_of_inRange (hranges : ∀ index < config.size, config.InRange index) :
    config.size * config.payload.toNat < 2 ^ 32 := by
  cases hsize : config.size with
  | zero => simp
  | succ last =>
      have hrange := hranges last (by omega)
      rw [InRange, toNat_offset (by omega), toNat_allocated, hsize, ← Nat.succ_mul] at hrange
      exact hrange.trans_lt (Nat.mod_lt _ (by decide))

/-- All ranges that the posting loop asks for lie in the buffer exactly for batches whose
size in bytes fits 32 bits, and then those of the tasks in flight do in every run. -/
theorem ranges_allocated (config : PoolConfig) (policy : PoolPolicy) :
    ((∀ index < config.size, config.InRange index) ↔
      config.batchSize.toNat * config.payload.toNat < 2 ^ 32) ∧
    (config.batchSize.toNat * config.payload.toNat < 2 ^ 32 →
      ∀ pool, (poolSystem config policy).Reachable pool →
        ∀ index ∈ pool.inFlight, config.InRange index) := by
  refine ⟨⟨PoolConfig.fits_of_inRange, fun hfits _ => PoolConfig.inRange_of_fits hfits⟩, ?_⟩
  intro hfits pool hreach index hindex
  have hlt := Finset.mem_range.mp ((poolSystem_ok hreach).lives.subset hindex)
  exact PoolConfig.inRange_of_fits hfits hlt

end Steps

end BenchBF3.Tasks
