import Mathlib.Algebra.BigOperators.Group.List.Basic
import BenchBF3.Channel.FlowControl

/-! # The accounts of the DMA sender

`send_dma_reqs` starts an operation for each descriptor and finishes operations in
bulk, as many as a reading of the sync event shows completed, and the rest when its
loop ends. Every call may fail: `ep_sendto` answers false once the program is
stopped, and it and the sync event job may throw. An exception in the loop is
caught and the rest is finished; the answer false leaves by a `goto` that passes
over it, and an exception in the first loop leaves the function.
-/

namespace BenchBF3.Channel

open Foundation

/-! ## `bench_stat` -/

/-- The counter and the timer's `time_point` of a `bench_stat`. -/
structure BenchStat where
  numOpsFinished : BitVec 64
  timePoint : BitVec 64

def BenchStat.startOneOp (stat : BenchStat) (now : BitVec 64) : BenchStat :=
  { stat with timePoint := stat.timePoint - now }

def BenchStat.finishBatchOp (stat : BenchStat) (numOps now : BitVec 64) : BenchStat where
  numOpsFinished := stat.numOpsFinished + numOps
  timePoint := stat.timePoint + now * numOps

/-! ## The sender with failing calls -/

/-- The sender and its statistics, with the times at which operations were started
and finished, the last reading of the sync event, and how many descriptors reached
the channel. -/
structure SenderRun where
  sender : Sender
  stat : BenchStat
  starts : List (BitVec 64)
  finishes : List (BitVec 64)
  reading : Nat
  delivered : Nat
  thrown : Bool

def SenderRun.init : SenderRun where
  sender := .init
  stat := ⟨0, 0⟩
  starts := []
  finishes := []
  reading := 0
  delivered := 0
  thrown := false

def SenderRun.startOneOp (run : SenderRun) (now : BitVec 64) : SenderRun :=
  { run with stat := run.stat.startOneOp now, starts := run.starts ++ [now] }

def SenderRun.finishBatchOp (run : SenderRun) (numOps now : BitVec 64) : SenderRun :=
  { run with
    stat := run.stat.finishBatchOp numOps now
    finishes := run.finishes ++ List.replicate numOps.toNat now }

/-- The code after the loop, which records what is still in flight. -/
def SenderRun.finishLoop (run : SenderRun) (now : BitVec 64) : SenderRun :=
  { run.finishBatchOp run.sender.inflightNum now with
    sender := { run.sender with pc := .close } }

/-- How a call of the sender ends, and the passages between calls. -/
inductive SenderCall
  | tau
  | sent
  | sendFalse
  | sendThrown
  | read
  | readThrown
  | stopped
  | closed
  | closeThrown
  | replied
  | replyThrown
  deriving DecidableEq, Repr

inductive RunStep (config : ChannelConfig) : SenderRun → SenderCall → SenderRun → Prop
  /-- The first loop does not look at what `ep_sendto` returns. -/
  | fill {run : SenderRun} (hlive : run.thrown = false) (hpc : run.sender.pc = .fill)
      {descriptor : DmaDescriptor} {sender : Sender}
      (hstep : SenderStep config run.sender (.send descriptor) sender) (now : BitVec 64) :
      RunStep config run .sent
        ({ run with sender, delivered := run.delivered + 1 }.startOneOp now)
  | fillFalse {run : SenderRun} (hlive : run.thrown = false) (hpc : run.sender.pc = .fill)
      {descriptor : DmaDescriptor} {sender : Sender}
      (hstep : SenderStep config run.sender (.send descriptor) sender) (now : BitVec 64) :
      RunStep config run .sendFalse ({ run with sender }.startOneOp now)
  | fillThrown {run : SenderRun} (hlive : run.thrown = false) (hpc : run.sender.pc = .fill)
      (hlt : run.sender.index < config.batchSize) :
      RunStep config run .sendThrown { run with thrown := true }
  | tau {run : SenderRun} (hlive : run.thrown = false) (hpc : run.sender.pc ≠ .head)
      {sender : Sender} (hstep : SenderStep config run.sender .tau sender) :
      RunStep config run .tau { run with sender }
  | stop {run : SenderRun} (hlive : run.thrown = false) (hpc : run.sender.pc = .head)
      (now : BitVec 64) : RunStep config run .stopped (run.finishLoop now)
  | read {run : SenderRun} (hlive : run.thrown = false) {value : Nat} (hle : run.reading ≤ value)
      (hdelivered : value ≤ run.delivered) {sender : Sender}
      (hstep : SenderStep config run.sender (.read (BitVec.ofNat 64 value)) sender)
      (now : BitVec 64) :
      RunStep config run .read
        ({ run with sender, reading := value }.finishBatchOp sender.needToSend now)
  | readThrown {run : SenderRun} (hlive : run.thrown = false) (hpc : run.sender.pc = .head)
      (now : BitVec 64) : RunStep config run .readThrown (run.finishLoop now)
  | send {run : SenderRun} (hlive : run.thrown = false) (hpc : run.sender.pc = .send)
      {descriptor : DmaDescriptor} {sender : Sender}
      (hstep : SenderStep config run.sender (.send descriptor) sender) (now : BitVec 64) :
      RunStep config run .sent
        ({ run with sender, delivered := run.delivered + 1 }.startOneOp now)
  /-- The `goto end_send`. -/
  | sendFalse {run : SenderRun} (hlive : run.thrown = false) (hpc : run.sender.pc = .send)
      (hlt : run.sender.index < run.sender.needToSend) :
      RunStep config run .sendFalse { run with sender := { run.sender with pc := .close } }
  | sendThrown {run : SenderRun} (hlive : run.thrown = false) (hpc : run.sender.pc = .send)
      (hlt : run.sender.index < run.sender.needToSend) (now : BitVec 64) :
      RunStep config run .sendThrown (run.finishLoop now)
  | close {run : SenderRun} (hlive : run.thrown = false) {sender : Sender}
      (hstep : SenderStep config run.sender .close sender) :
      RunStep config run .closed { run with sender }
  | closeThrown {run : SenderRun} (hlive : run.thrown = false) (hpc : run.sender.pc = .close) :
      RunStep config run .closeThrown { run with thrown := true }
  | reply {run : SenderRun} (hlive : run.thrown = false) {sender : Sender}
      (hstep : SenderStep config run.sender .reply sender) :
      RunStep config run .replied { run with sender }
  | replyThrown {run : SenderRun} (hlive : run.thrown = false)
      (hpc : run.sender.pc = .waitReply) :
      RunStep config run .replyThrown { run with thrown := true }

def runSystem (config : ChannelConfig) : System SenderRun SenderCall where
  start run := run = SenderRun.init
  step := RunStep config

/-- Control is behind the loop, or has left the function. -/
def SenderRun.Ended (run : SenderRun) : Prop :=
  run.thrown = true ∨ run.sender.pc = .close ∨ run.sender.pc = .waitReply ∨
    run.sender.pc = .done

/-- Every start time is matched by a finish time, the count says so, and the timer
holds the sum of the durations. -/
def SenderRun.Balanced (run : SenderRun) : Prop :=
  run.finishes.length = run.starts.length ∧
    run.stat.numOpsFinished = BitVec.ofNat 64 run.starts.length ∧
    run.stat.timePoint = run.finishes.sum - run.starts.sum

/-- A failing call that loses no operation: `ep_sendto` answers false in the loop
only when the last reading counts every descriptor sent so far, and throws in
the first loop only before the first operation. -/
def SenderRun.Accounts (run : SenderRun) (call : SenderCall) : Prop :=
  (call = .sendFalse → run.sender.pc = .send → run.reading = run.starts.length) ∧
    (call = .sendThrown → run.sender.pc = .fill → run.starts = [])

/-! ## The invariant -/

/-- The statistics are what the times of the starts and finishes make them. -/
structure SenderRun.Logged (run : SenderRun) : Prop where
  count : run.stat.numOpsFinished = BitVec.ofNat 64 run.finishes.length
  time : run.stat.timePoint = run.finishes.sum - run.starts.sum

/-- In the loop what is finished is what the last reading counts, and the rest is
in flight. -/
def SenderRun.Tallied (run : SenderRun) : Prop :=
  match run.sender.pc with
  | .fill => run.finishes = [] ∧ run.reading = 0
  | .head | .send => run.finishes.length = run.reading ∧
      run.sender.inflightNum.toNat + run.finishes.length = run.starts.length
  | _ => True

structure SenderRun.Ok (config : ChannelConfig) (run : SenderRun) : Prop where
  sender : run.sender.Ok config run.starts.length run.reading
  reading_le : run.reading ≤ run.delivered
  delivered_le : run.delivered ≤ run.starts.length
  tallied : run.Tallied
  logged : run.Logged

section Logged

variable {run : SenderRun}

theorem SenderRun.Logged.startOneOp (hlogged : run.Logged) (now : BitVec 64) :
    (run.startOneOp now).Logged where
  count := hlogged.count
  time := by
    change run.stat.timePoint - now = run.finishes.sum - (run.starts ++ [now]).sum
    rw [List.sum_append, List.sum_singleton, hlogged.time, sub_sub]

theorem SenderRun.Logged.finishBatchOp (hlogged : run.Logged) (numOps now : BitVec 64) :
    (run.finishBatchOp numOps now).Logged where
  count := by
    change run.stat.numOpsFinished + numOps = BitVec.ofNat 64 (run.finishes ++ _).length
    rw [List.length_append, List.length_replicate, BitVec.ofNat_add, hlogged.count,
      BitVec.ofNat_toNat, BitVec.setWidth_eq]
  time := by
    change run.stat.timePoint + now * numOps =
      (run.finishes ++ List.replicate numOps.toNat now).sum - run.starts.sum
    rw [List.sum_append, List.sum_replicate, hlogged.time, nsmul_eq_mul, BitVec.natCast_eq_ofNat,
      BitVec.ofNat_toNat, BitVec.setWidth_eq, mul_comm, sub_add_eq_add_sub]

/-- The count and the timer are those of the logged times, so only the numbers of
starts and finishes have to be compared. -/
theorem SenderRun.Logged.balanced_iff (hlogged : run.Logged) :
    run.Balanced ↔ run.finishes.length = run.starts.length := by
  constructor
  · exact And.left
  · intro hequal
    exact ⟨hequal, by rw [hlogged.count, hequal], hlogged.time⟩

end Logged

section Steps

variable {config : ChannelConfig} {run next : SenderRun} {call : SenderCall}

theorem SenderRun.Ok.reading_le_starts (hok : run.Ok config) :
    run.reading ≤ run.starts.length :=
  hok.reading_le.trans hok.delivered_le

/-- Starting an operation at the step that sends its descriptor. -/
theorem SenderRun.Ok.startOneOp (hok : run.Ok config) {descriptor : DmaDescriptor}
    {sender : Sender} (hstep : SenderStep config run.sender (.send descriptor) sender)
    {delivered : Nat} (hle : run.delivered ≤ delivered)
    (hdelivered : delivered ≤ run.starts.length + 1) (now : BitVec 64) :
    ({ run with sender, delivered }.startOneOp now).Ok config where
  sender := by
    change sender.Ok config (run.starts ++ [now]).length run.reading
    rw [List.length_append]
    exact hstep.ok hok.reading_le_starts nofun hok.sender
  reading_le := hok.reading_le.trans hle
  delivered_le := by
    change delivered ≤ (run.starts ++ [now]).length
    rwa [List.length_append]
  tallied := by
    have htallied := hok.tallied
    have hsender := hok.sender
    cases hstep with
    | fill hpc _ _ =>
        simp only [SenderRun.Tallied, hpc] at htallied
        simpa only [SenderRun.Tallied, SenderRun.startOneOp, hpc] using htallied
    | send hpc hlt _ =>
        simp only [SenderRun.Tallied, hpc] at htallied
        simp only [Sender.Ok, hpc] at hsender
        obtain ⟨-, -, hneed, -, hinflight⟩ := hsender
        have hbelow : run.sender.index.toNat < run.sender.needToSend.toNat := hlt
        have hbatch := config.batchSize.isLt
        simp only [SenderRun.Tallied, SenderRun.startOneOp, Sender.sentOne, hpc]
        rw [toNat_add_one (by omega), List.length_append, List.length_singleton]
        exact ⟨htallied.1, by omega⟩
  logged :=
    have hlogged : Logged { run with sender, delivered } := ⟨hok.logged.count, hok.logged.time⟩
    hlogged.startOneOp now

/-- A reading finishes as many operations as it shows completed beyond the last. -/
theorem SenderRun.Ok.read (hok : run.Ok config) {value : Nat} (hle : run.reading ≤ value)
    (hdelivered : value ≤ run.delivered) {sender : Sender}
    (hstep : SenderStep config run.sender (.read (BitVec.ofNat 64 value)) sender)
    (now : BitVec 64) :
    ({ run with sender, reading := value }.finishBatchOp sender.needToSend now).Ok config where
  sender := by
    refine hstep.ok (hdelivered.trans hok.delivered_le) ?_ (hok.sender.mono hle)
    intro reading hreading
    cases hreading
    rfl
  reading_le := hdelivered
  delivered_le := hok.delivered_le
  tallied := by
    have htallied := hok.tallied
    have hsender := hok.sender
    have hvalue := hdelivered.trans hok.delivered_le
    cases hstep with
    | read hpc _ =>
        simp only [SenderRun.Tallied, hpc] at htallied
        simp only [Sender.Ok, hpc] at hsender
        obtain ⟨hsendNum, hwindow, hinflight⟩ := hsender
        have hneed := toNat_needToSend hvalue (hwindow.trans (Nat.add_le_add_right hle _))
        rw [← hsendNum] at hneed
        rw [hinflight] at htallied
        simp only [SenderRun.Tallied, SenderRun.finishBatchOp, Sender.read, hinflight,
          List.length_append, List.length_replicate]
        generalize BitVec.ofNat 64 value + config.batchSize - run.sender.sendNum = need at hneed ⊢
        rw [BitVec.toNat_sub_of_le (by rw [BitVec.le_def]; omega)]
        omega
  logged :=
    have hlogged : Logged { run with sender, reading := value } :=
      ⟨hok.logged.count, hok.logged.time⟩
    hlogged.finishBatchOp sender.needToSend now

/-- The code after the loop finishes all that was started. -/
theorem SenderRun.Ok.finishLoop_balanced (hok : run.Ok config)
    (hpc : run.sender.pc = .head ∨ run.sender.pc = .send) (now : BitVec 64) :
    (run.finishLoop now).Balanced := by
  have hlogged := hok.logged.finishBatchOp run.sender.inflightNum now
  apply hlogged.balanced_iff.mpr
  have htallied := hok.tallied
  change (run.finishes ++ _).length = run.starts.length
  rw [List.length_append, List.length_replicate, Nat.add_comm]
  rcases hpc with hpc | hpc <;> simp only [SenderRun.Tallied, hpc] at htallied <;> exact htallied.2

theorem SenderRun.Ok.finishLoop (hok : run.Ok config) (now : BitVec 64) :
    (run.finishLoop now).Ok config where
  sender := hok.sender.window
  reading_le := hok.reading_le
  delivered_le := hok.delivered_le
  tallied := trivial
  logged := ⟨(hok.logged.finishBatchOp _ now).count, (hok.logged.finishBatchOp _ now).time⟩

/-- A passage between two calls changes no count. -/
theorem SenderRun.Ok.tau (hok : run.Ok config) {sender : Sender} (hpc : run.sender.pc ≠ .head)
    (hstep : SenderStep config run.sender .tau sender) : Ok config { run with sender } where
  sender := hstep.ok hok.reading_le_starts nofun hok.sender
  reading_le := hok.reading_le
  delivered_le := hok.delivered_le
  tallied := by
    have htallied := hok.tallied
    have hsender := hok.sender
    cases hstep with
    | filled hfill hge =>
        simp only [SenderRun.Tallied, hfill] at htallied
        simp only [Sender.Ok, hfill] at hsender
        have habove : ¬ run.sender.index.toNat < config.batchSize.toNat := hge
        obtain ⟨hnone, hzero⟩ := htallied
        simp only [SenderRun.Tallied, Sender.filled, hnone, hzero, List.length_nil]
        exact ⟨trivial, by omega⟩
    | stop hhead =>
        exact absurd hhead hpc
    | sent hsend _ =>
        simp only [SenderRun.Tallied, hsend] at htallied
        exact htallied
  logged := ⟨hok.logged.count, hok.logged.time⟩

/-- A step makes at most one call of the statistics. -/
theorem RunStep.stat_cases (hstep : RunStep config run call next) :
    next.stat = run.stat ∨ (∃ now, next.stat = run.stat.startOneOp now) ∨
      ∃ numOps now, next.stat = run.stat.finishBatchOp numOps now := by
  cases hstep with
  | fill _ _ _ now | fillFalse _ _ _ now | send _ _ _ now => exact .inr (.inl ⟨now, rfl⟩)
  | stop _ _ now | readThrown _ _ now | sendThrown _ _ _ now | read _ _ _ _ now =>
      exact .inr (.inr ⟨_, now, rfl⟩)
  | _ => exact .inl rfl

theorem RunStep.ok (hstep : RunStep config run call next) (hok : run.Ok config) :
    next.Ok config := by
  have hdelivered := hok.delivered_le
  cases hstep with
  | fill _ _ hstep now | send _ _ hstep now =>
      exact hok.startOneOp hstep (Nat.le_succ _) (Nat.succ_le_succ hdelivered) now
  | fillFalse _ _ hstep now =>
      exact hok.startOneOp hstep le_rfl (hdelivered.trans (Nat.le_succ _)) now
  | tau _ hpc hstep =>
      exact hok.tau hpc hstep
  | stop _ _ now | readThrown _ _ now | sendThrown _ _ _ now =>
      exact hok.finishLoop now
  | read _ hle hvalue hstep now =>
      exact hok.read hle hvalue hstep now
  | sendFalse _ _ _ =>
      exact ⟨hok.sender.window, hok.reading_le, hdelivered, trivial, hok.logged.count,
        hok.logged.time⟩
  | close _ hstep | reply _ hstep =>
      refine ⟨hstep.ok hok.reading_le_starts nofun hok.sender, hok.reading_le, hdelivered, ?_,
        hok.logged.count, hok.logged.time⟩
      cases hstep
      trivial
  | fillThrown _ _ _ | closeThrown _ _ | replyThrown _ _ =>
      exact ⟨hok.sender, hok.reading_le, hdelivered, hok.tallied, hok.logged.count,
        hok.logged.time⟩

theorem runSystem_ok (hreach : (runSystem config).Reachable run) : run.Ok config := by
  apply hreach.invariant
  · intro run hstart
    rw [hstart]
    exact ⟨⟨rfl, Nat.zero_le _⟩, le_rfl, le_rfl, ⟨rfl, rfl⟩, rfl, rfl⟩
  · intro run call next _ hok hstep
    exact RunStep.ok hstep hok

/-- A step that stays in the loops. -/
theorem SenderRun.not_ended_of_pc (hthrown : run.thrown = false)
    (hpc : run.sender.pc = .fill ∨ run.sender.pc = .head ∨ run.sender.pc = .send) :
    ¬ run.Ended := by
  rcases hpc with hpc | hpc | hpc <;> simp [SenderRun.Ended, hthrown, hpc]

/-- The step that ends the loop, whichever it is, keeps the accounts exactly under
the condition. -/
theorem RunStep.balanced_iff (hstep : RunStep config run call next) (hok : run.Ok config)
    (hlive : ¬ run.Ended) (hended : next.Ended) : next.Balanced ↔ run.Accounts call := by
  have hnext := RunStep.ok hstep hok
  have htallied := hok.tallied
  cases hstep with
  | fill hthrown hpc hstep now | fillFalse hthrown hpc hstep now =>
      refine absurd hended (SenderRun.not_ended_of_pc hthrown (.inl ?_))
      cases hstep <;> simp_all [SenderRun.startOneOp]
  | send hthrown hpc hstep now =>
      refine absurd hended (SenderRun.not_ended_of_pc hthrown (.inr (.inr ?_)))
      cases hstep <;> simp_all [SenderRun.startOneOp, Sender.sentOne]
  | tau hthrown hpc hstep =>
      refine absurd hended (SenderRun.not_ended_of_pc hthrown ?_)
      cases hstep <;> simp_all [Sender.filled]
  | read hthrown _ _ hstep now =>
      refine absurd hended (SenderRun.not_ended_of_pc hthrown ?_)
      cases hstep
      exact .inr (.inr rfl)
  | stop _ hpc now | readThrown _ hpc now =>
      exact iff_of_true (hok.finishLoop_balanced (.inl hpc) now) (by simp [SenderRun.Accounts])
  | sendThrown _ hpc _ now =>
      exact iff_of_true (hok.finishLoop_balanced (.inr hpc) now)
        (by simp [SenderRun.Accounts, hpc])
  | sendFalse _ hpc _ =>
      -- Nothing more is finished, so the last reading has to count everything.
      simp only [SenderRun.Tallied, hpc] at htallied
      rw [hnext.logged.balanced_iff]
      change run.finishes.length = run.starts.length ↔ _
      rw [htallied.1]
      simp [SenderRun.Accounts, hpc]
  | fillThrown _ hpc _ =>
      simp only [SenderRun.Tallied, hpc] at htallied
      rw [hnext.logged.balanced_iff]
      change run.finishes.length = run.starts.length ↔ _
      rw [htallied.1, List.length_nil, eq_comm, List.length_eq_zero_iff]
      simp [SenderRun.Accounts, hpc]
  | close _ hstep =>
      cases hstep with
      | close hpc => exact absurd (.inr (.inl hpc)) hlive
  | closeThrown _ hpc =>
      exact absurd (.inr (.inl hpc)) hlive
  | reply _ hstep =>
      cases hstep with
      | reply hpc => exact absurd (.inr (.inr (.inl hpc))) hlive
  | replyThrown _ hpc =>
      exact absurd (.inr (.inr (.inl hpc))) hlive

/-- Behind the loop nothing is started or finished. -/
theorem RunStep.balanced_of_ended (hstep : RunStep config run call next) (hended : run.Ended)
    (hbalanced : run.Balanced) : next.Balanced := by
  cases hstep with
  | closeThrown _ _ | replyThrown _ _ | close _ _ | reply _ _ | tau _ _ _ => exact hbalanced
  | fill hthrown hpc _ _ | fillFalse hthrown hpc _ _ | fillThrown hthrown hpc _ =>
      exact absurd hended (SenderRun.not_ended_of_pc hthrown (.inl hpc))
  | stop hthrown hpc _ | readThrown hthrown hpc _ =>
      exact absurd hended (SenderRun.not_ended_of_pc hthrown (.inr (.inl hpc)))
  | send hthrown hpc _ _ | sendFalse hthrown hpc _ | sendThrown hthrown hpc _ _ =>
      exact absurd hended (SenderRun.not_ended_of_pc hthrown (.inr (.inr hpc)))
  | read hthrown _ _ hstep _ =>
      cases hstep with
      | read hpc _ =>
          exact absurd hended (SenderRun.not_ended_of_pc hthrown (.inr (.inl hpc)))

/-- In every run whose failing calls all meet the condition, every state behind the
loop or outside the function is balanced; and a step that ends the loop leaves a
balanced state only under the condition. -/
theorem accounts_iff (config : ChannelConfig) :
    (∀ run, ((runSystem config).restrict SenderRun.Accounts).Reachable run → run.Ended →
      run.Balanced) ∧
    (∀ run call next, (runSystem config).Reachable run → RunStep config run call next →
      ¬ run.Ended → next.Ended → (next.Balanced ↔ run.Accounts call)) := by
  constructor
  · intro run hreach hended
    induction hreach with
    | start hstart =>
        rw [hstart] at hended
        exact absurd hended (SenderRun.not_ended_of_pc rfl (.inl rfl))
    | @step run next call prior hstep ih =>
        by_cases hbefore : run.Ended
        · exact RunStep.balanced_of_ended hstep.2 hbefore (ih hbefore)
        · exact (RunStep.balanced_iff hstep.2 (runSystem_ok prior.of_restrict) hbefore
            hended).mpr hstep.1
  · intro run call next hreach hstep hlive hended
    exact RunStep.balanced_iff hstep (runSystem_ok hreach) hlive hended

end Steps

/-- The first batch is sent, and the sync event shows one of the two completed. -/
theorem twoAtOnce_reachable : ∃ run,
    ((runSystem twoAtOnce).restrict SenderRun.Accounts).Reachable run ∧ run.thrown = false ∧
    run.sender.pc = .send ∧ run.sender.index < run.sender.needToSend ∧
    run.starts.length = 2 ∧ run.finishes.length = 1 := by
  have hstart : ((runSystem twoAtOnce).restrict SenderRun.Accounts).Reachable .init := .start rfl
  have hfirst := hstart.step_restrict (.fill rfl rfl (.fill rfl (by decide)
    (show (0 : BitVec 64) ≤ int32Max by decide)) 10) ⟨nofun, nofun⟩
  have hsecond := hfirst.step_restrict (.fill rfl rfl (.fill rfl (by decide)
    (show (0 : BitVec 64) ≤ int32Max by decide)) 20) ⟨nofun, nofun⟩
  have hfilled := hsecond.step_restrict (.tau rfl (by decide) (.filled rfl (by decide)))
    ⟨nofun, nofun⟩
  have hread := hfilled.step_restrict (.read rfl (Nat.zero_le 1) (by decide)
    (.read rfl (BitVec.ofNat 64 1)) 30) ⟨nofun, nofun⟩
  exact ⟨_, hread, rfl, rfl, by decide, rfl, rfl⟩

/-- `ep_sendto` throws after that; the other operation is finished as well. -/
theorem accounts_twoAtOnce : ∃ run,
    ((runSystem twoAtOnce).restrict SenderRun.Accounts).Reachable run ∧ run.Ended ∧
    run.starts.length = 2 ∧ run.Balanced := by
  obtain ⟨run, hreach, hlive, hpc, hlt, hstarts, -⟩ := twoAtOnce_reachable
  have hthrown := hreach.step_restrict (.sendThrown hlive hpc hlt 40)
    ⟨nofun, fun _ hfill => absurd (hpc.symm.trans hfill) nofun⟩
  have hended : (run.finishLoop 40).Ended := .inr (.inl rfl)
  exact ⟨_, hthrown, hended, hstarts, (accounts_iff twoAtOnce).1 _ hthrown hended⟩

/-- `ep_sendto` answers false instead: one operation is never finished. -/
theorem twoAtOnce_unbalanced : ∃ run, (runSystem twoAtOnce).Reachable run ∧ run.Ended ∧
    run.starts.length = 2 ∧ run.finishes.length = 1 ∧ ¬ run.Balanced := by
  obtain ⟨run, hreach, hlive, hpc, hlt, hstarts, hfinishes⟩ := twoAtOnce_reachable
  have hfalse := hreach.of_restrict.step (RunStep.sendFalse hlive hpc hlt)
  refine ⟨_, hfalse, .inr (.inl rfl), hstarts, hfinishes, ?_⟩
  rintro ⟨hequal, -⟩
  change run.finishes.length = run.starts.length at hequal
  rw [hstarts, hfinishes] at hequal
  exact absurd hequal (by decide)

end BenchBF3.Channel
