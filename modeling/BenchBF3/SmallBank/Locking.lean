import Mathlib.Algebra.Order.BigOperators.Group.Multiset
import BenchBF3.Foundation.System
import BenchBF3.SmallBank.Server
import BenchBF3.SmallBank.Transition

/-! # Interleaved lock requests

Any number of server threads execute `get_lock_handler` and `finish_handler`
at the same time; a step is one access to the tables. Every request carries a
ghost ledger of the locks it holds, changed only by the calls it makes. The
mutexes always hold exactly the locks of all ledgers together. Two write locks
never meet, but `try_lock_write` does not look at `readers_count`, so a write
lock is kept apart from read locks only in runs that never attempt one over a
reader.
-/

namespace BenchBF3.SmallBank

open Foundation Foundation.Program

/-- A lock request from its arrival at a server thread to the end of its FINISH. -/
inductive Session
  | locking (req : RpcMsgReq GetLockReq) (rest : Handler (RpcMsgResp GetLockResp))
      (held : Multiset Lock)
  | granted (req : GetLockReq) (held : Multiset Lock)
  | finishing (req : RpcMsgReq FinishReq) (rest : Handler (RpcMsgResp FinishResp))
      (held : Multiset Lock)

namespace Session

def held : Session → Multiset Lock
  | locking _ _ held => held
  | granted _ held => held
  | finishing _ _ held => held

/-- Locks granted by an answered `get_lock_handler` and not yet released by
`finish_handler`. -/
def outstanding : Session → Multiset Lock
  | locking _ _ _ => 0
  | granted _ held => held
  | finishing _ _ held => held

/-- The unfinished handler keeps to the lock discipline whatever the other
threads do; a granted request holds exactly what it asked for. -/
def Ok : Session → Prop
  | locking req rest held => rest.Safe lockDiscipline (fun resp held' => held' =
      if resp.respControl.success then req.reqControl.toUsers.held req.reqControl.lock else 0) held
  | granted req held => held = req.toUsers.held req.lock
  | finishing _ rest held => rest.Safe lockDiscipline (fun _ held' => held' = 0) held

theorem outstanding_le_held (session : Session) : session.outstanding ≤ session.held := by
  cases session with
  | locking req rest held => exact Multiset.zero_le held
  | granted req held => exact le_rfl
  | finishing req rest held => exact le_rfl

end Session

structure LockState where
  server : Server
  sessions : Multiset Session

namespace LockState

/-- All locks held by granted unfinished requests and by running handlers. -/
def held (state : LockState) : Multiset Lock := (state.sessions.map Session.held).sum

def outstanding (state : LockState) : Multiset Lock :=
  (state.sessions.map Session.outstanding).sum

theorem outstanding_le_held (state : LockState) : state.outstanding ≤ state.held :=
  Multiset.sum_map_le_sum_map _ _ fun session _ => session.outstanding_le_held

end LockState

/-- FINISH releases exactly what the granted request asked for. -/
def FinishReq.Releases (finish : FinishReq) (req : GetLockReq) : Prop :=
  finish.toUsers = req.toUsers ∧ finish.unlock = req.lock

inductive LockAction
  | arrive
  | call (operation : ServerCall)
  | answer

/-- One step of the server: a request arrives, a running handler makes its
next call, or a handler answers. -/
inductive LockStep (admits : GetLockReq → Prop) : LockState → LockAction → LockState → Prop
  | getLockArrives {server : Server} {others : Multiset Session}
      (req : RpcMsgReq GetLockReq) (hadmits : admits req.reqControl) :
      LockStep admits ⟨server, others⟩ .arrive
        ⟨server, .locking req (getLockHandler req) 0 ::ₘ others⟩
  | getLockCalls {server : Server} {others : Multiset Session}
      {req : RpcMsgReq GetLockReq} {operation : ServerCall}
      {next : operation.Reply → Handler (RpcMsgResp GetLockResp)} {held : Multiset Lock} :
      LockStep admits ⟨server, .locking req (.call operation next) held ::ₘ others⟩
        (.call operation)
        ⟨(execute operation server).2,
          .locking req (next (execute operation server).1)
            (lockDiscipline.after operation (execute operation server).1 held) ::ₘ others⟩
  | getLockAnswers {server : Server} {others : Multiset Session}
      {req : RpcMsgReq GetLockReq} {resp : RpcMsgResp GetLockResp} {held : Multiset Lock} :
      LockStep admits ⟨server, .locking req (.ret resp) held ::ₘ others⟩ .answer
        ⟨server, if resp.respControl.success then .granted req.reqControl held ::ₘ others
          else others⟩
  | finishArrives {server : Server} {others : Multiset Session} {req : GetLockReq}
      {held : Multiset Lock} (finish : RpcMsgReq FinishReq)
      (hreleases : finish.reqControl.Releases req) :
      LockStep admits ⟨server, .granted req held ::ₘ others⟩ .arrive
        ⟨server, .finishing finish (finishHandler finish) held ::ₘ others⟩
  | finishCalls {server : Server} {others : Multiset Session}
      {finish : RpcMsgReq FinishReq} {operation : ServerCall}
      {next : operation.Reply → Handler (RpcMsgResp FinishResp)} {held : Multiset Lock} :
      LockStep admits ⟨server, .finishing finish (.call operation next) held ::ₘ others⟩
        (.call operation)
        ⟨(execute operation server).2,
          .finishing finish (next (execute operation server).1)
            (lockDiscipline.after operation (execute operation server).1 held) ::ₘ others⟩
  | finishAnswers {server : Server} {others : Multiset Session}
      {finish : RpcMsgReq FinishReq} {resp : RpcMsgResp FinishResp} {held : Multiset Lock} :
      LockStep admits ⟨server, .finishing finish (.ret resp) held ::ₘ others⟩ .answer
        ⟨server, others⟩

/-- The server from its start with all locks free, for the requests that
clients may send. -/
def lockSystem (admits : GetLockReq → Prop) : System LockState LockAction where
  start state := (∀ record, state.server.mutex record = {}) ∧ state.sessions = 0
  step := LockStep admits

variable {admits : GetLockReq → Prop}

theorem LockStep.path {state next : LockState} {action : LockAction}
    (hstep : LockStep admits state action next) : (lockSystem admits).Path state next :=
  System.Path.single hstep

/-! ## What one step does to the ledgers -/

/-- A step leaves tables and ledgers alone, or one caller makes one permitted
call and changes its own ledger accordingly. -/
theorem LockStep.held_cases {state next : LockState} {action : LockAction}
    (hstep : LockStep admits state action next)
    (hok : ∀ session ∈ state.sessions, session.Ok) :
    (next.server = state.server ∧ next.held = state.held) ∨
      ∃ operation own others, action = .call operation ∧
        lockDiscipline.permits operation own ∧ state.held = own + others ∧
        next.server = (execute operation state.server).2 ∧
        next.held =
          lockDiscipline.after operation (execute operation state.server).1 own + others := by
  cases hstep with
  | getLockArrives req hadmits => exact .inl ⟨rfl, by simp [LockState.held, Session.held]⟩
  | @getLockCalls server others req operation rest held =>
      have hsafe := hok _ (Multiset.mem_cons_self _ _)
      exact .inr ⟨operation, held, (others.map Session.held).sum, rfl, hsafe.1,
        by simp [LockState.held, Session.held], rfl, by simp [LockState.held, Session.held]⟩
  | @getLockAnswers server others req resp held =>
      have hheld : held = _ := hok _ (Multiset.mem_cons_self _ _)
      refine .inl ⟨rfl, ?_⟩
      cases hsuccess : resp.respControl.success with
      | true => simp [LockState.held, Session.held]
      | false =>
          rw [hsuccess] at hheld
          simp [LockState.held, Session.held, hheld]
  | finishArrives finish hreleases => exact .inl ⟨rfl, by simp [LockState.held, Session.held]⟩
  | @finishCalls server others finish operation rest held =>
      have hsafe := hok _ (Multiset.mem_cons_self _ _)
      exact .inr ⟨operation, held, (others.map Session.held).sum, rfl, hsafe.1,
        by simp [LockState.held, Session.held], rfl, by simp [LockState.held, Session.held]⟩
  | @finishAnswers server others finish resp held =>
      have hheld : held = 0 := hok _ (Multiset.mem_cons_self _ _)
      exact .inl ⟨rfl, by simp [LockState.held, Session.held, hheld]⟩

/-- Every step keeps every session within the discipline. -/
theorem LockStep.sessions_ok {state next : LockState} {action : LockAction}
    (hstep : LockStep admits state action next)
    (hok : ∀ session ∈ state.sessions, session.Ok) :
    ∀ session ∈ next.sessions, session.Ok := by
  cases hstep with
  | getLockArrives req hadmits =>
      rw [Multiset.forall_mem_cons]
      exact ⟨getLockHandler_safe req, hok⟩
  | getLockCalls =>
      rw [Multiset.forall_mem_cons] at hok ⊢
      exact ⟨hok.1.2 _, hok.2⟩
  | @getLockAnswers server others req resp held =>
      rw [Multiset.forall_mem_cons] at hok
      have hheld : held = _ := hok.1
      cases hsuccess : resp.respControl.success with
      | true =>
          rw [hsuccess] at hheld
          simp only [↓reduceIte]
          rw [Multiset.forall_mem_cons]
          exact ⟨hheld, hok.2⟩
      | false => exact hok.2
  | @finishArrives server others req held finish hreleases =>
      rw [Multiset.forall_mem_cons] at hok ⊢
      have hheld : held = req.toUsers.held req.lock := hok.1
      refine ⟨?_, hok.2⟩
      rw [hheld, ← hreleases.1, ← hreleases.2]
      exact finishHandler_safe finish
  | finishCalls =>
      rw [Multiset.forall_mem_cons] at hok ⊢
      exact ⟨hok.1.2 _, hok.2⟩
  | finishAnswers =>
      rw [Multiset.forall_mem_cons] at hok
      exact hok.2

/-- The invariant of all runs: disciplined sessions, and mutexes that hold
exactly the locks of all ledgers. -/
structure LockState.Accounted (state : LockState) : Prop where
  ok : ∀ session ∈ state.sessions, session.Ok
  matching : Matches state.server.mutex state.held

theorem LockStep.accounted {state next : LockState} {action : LockAction}
    (hstep : LockStep admits state action next) (hinv : state.Accounted) : next.Accounted := by
  refine ⟨hstep.sessions_ok hinv.ok, ?_⟩
  rcases hstep.held_cases hinv.ok with
    ⟨hserver, hheld⟩ | ⟨operation, own, others, -, hpermits, hbefore, hserver, hafter⟩
  · rw [hserver, hheld]
    exact hinv.matching
  · rw [hserver, hafter]
    apply execute_matches others operation state.server own hpermits
    rw [← hbefore]
    exact hinv.matching

theorem lockSystem_accounted {state : LockState}
    (hreach : (lockSystem admits).Reachable state) : state.Accounted := by
  apply hreach.invariant
  · rintro ⟨server, sessions⟩ ⟨hfree, hnone⟩
    dsimp only at hfree hnone
    subst sessions
    refine ⟨by simp, ?_⟩
    have hmutex : server.mutex = fun _ => {} := funext hfree
    simpa [hmutex, LockState.held] using Matches.initial
  · intro state action next _ hinv hstep
    exact hstep.accounted hinv

/-! ## Handlers that run alone -/

/-- Executing `get_lock_handler` as one atomic step is one of the interleavings. -/
theorem getLock_path (req : RpcMsgReq GetLockReq) (hadmits : admits req.reqControl)
    (server : Server) (others : Multiset Session) :
    ∃ held, (lockSystem admits).Path ⟨server, others⟩
      ⟨((getLockHandler req).run execute server).2,
        if ((getLockHandler req).run execute server).1.respControl.success then
          .granted req.reqControl held ::ₘ others else others⟩ := by
  have hrun : ∀ (program : Handler (RpcMsgResp GetLockResp)) (server : Server) held,
      ∃ held', (lockSystem admits).Path ⟨server, .locking req program held ::ₘ others⟩
        ⟨(program.run execute server).2,
          .locking req (.ret (program.run execute server).1) held' ::ₘ others⟩ := by
    intro program
    induction program with
    | ret resp => exact fun server held => ⟨held, .refl _⟩
    | call operation next ih =>
        intro server held
        obtain ⟨held', hpath⟩ := ih (execute operation server).1 (execute operation server).2
          (lockDiscipline.after operation (execute operation server).1 held)
        exact ⟨held', LockStep.getLockCalls.path.trans hpath⟩
  obtain ⟨held, hpath⟩ := hrun (getLockHandler req) server 0
  exact ⟨held, ((LockStep.getLockArrives req hadmits).path.trans hpath).trans
    LockStep.getLockAnswers.path⟩

/-- A GET_LOCK that runs alone and succeeds leaves a granted request with the
locks it asked for. -/
theorem reachable_granted {req : RpcMsgReq GetLockReq} (hadmits : admits req.reqControl)
    {server : Server} {others : Multiset Session}
    (hreach : (lockSystem admits).Reachable ⟨server, others⟩)
    (hsuccess : ((getLockHandler req).run execute server).1.respControl.success = true) :
    (lockSystem admits).Reachable ⟨((getLockHandler req).run execute server).2,
      .granted req.reqControl (req.reqControl.toUsers.held req.reqControl.lock) ::ₘ others⟩ := by
  obtain ⟨held, hpath⟩ := getLock_path req hadmits server others
  rw [if_pos hsuccess] at hpath
  have hnext := hreach.path hpath
  have hok : (Session.granted req.reqControl held).Ok :=
    (lockSystem_accounted hnext).ok _ (Multiset.mem_cons_self _ others)
  have hheld : held = req.reqControl.toUsers.held req.reqControl.lock := hok
  rw [hheld] at hnext
  exact hnext

/-! ## Lock accounting -/

/-- In every reachable state, for every record: the reader count is the number
of read locks held, in the 32-bit arithmetic of `int`; the writer flag shows
the one write lock, if any; granted requests hold what they asked for, and a
handler about to answer failure holds nothing. -/
theorem readersCount_eq_readLocks {state : LockState}
    (hreach : (lockSystem fun _ => True).Reachable state) :
    (∀ record,
      (state.server.mutex record).readersCount =
        BitVec.ofNat 32 (state.held.count (record, .read)) ∧
      (state.held.count (record, .read) < 2 ^ 31 →
        (state.server.mutex record).readersCount.toInt = state.held.count (record, .read)) ∧
      state.held.count (record, .write) ≤ 1 ∧
      ((state.server.mutex record).writerLock = true ↔
        state.held.count (record, .write) = 1)) ∧
    (∀ req held, .granted req held ∈ state.sessions → held = req.toUsers.held req.lock) ∧
    (∀ req resp held, .locking req (.ret resp) held ∈ state.sessions →
      resp.respControl.success = false → held = 0) := by
  have hinv := lockSystem_accounted hreach
  refine ⟨?_, ?_, ?_⟩
  · intro record
    refine ⟨hinv.matching.readers record, ?_, hinv.matching.writers record,
      hinv.matching.writerLock record⟩
    intro hsmall
    rw [hinv.matching.readers record, BitVec.toInt_eq_toNat_of_lt] <;>
      simp only [BitVec.toNat_ofNat] <;> omega
  · exact fun req held hmem => hinv.ok _ hmem
  · intro req resp held hmem hfailure
    have hheld : held = _ := hinv.ok _ hmem
    simpa [hfailure] using hheld

/-- A request for one read lock, on the first checking record. -/
def readFirst : RpcMsgReq GetLockReq where
  reqCommon := ⟨.getLock, 1⟩
  reqControl := { user1Id := 0, user2Id := 0, lock := ⟨.readLock, .noLock, .noLock, .noLock⟩ }

theorem readFirst_run {server : Server}
    (hfree : (server.mutex ⟨.checking, 0⟩).writerLock = false) :
    ((getLockHandler readFirst).run execute server).1.respControl.success = true := by
  simp [getLockHandler, acquirePart, readFirst, PerPart.get, perform, execute, Users.record,
    SpinlockRwMutex.tryLockRead, hfree]

/-- Any number of read locks can be granted on one record. -/
theorem readFirst_reachable (count : Nat) :
    ∃ server, (lockSystem fun _ => True).Reachable ⟨server,
      Multiset.replicate count (.granted readFirst.reqControl {(⟨.checking, 0⟩, .read)})⟩ := by
  induction count with
  | zero => exact ⟨⟨fun _ => 0, fun _ => {}⟩, .start ⟨fun _ => rfl, rfl⟩⟩
  | succ count ih =>
      obtain ⟨server, hreach⟩ := ih
      have hfree : (server.mutex ⟨.checking, 0⟩).writerLock = false := by
        have hwriter := (lockSystem_accounted hreach).matching.writerLock ⟨.checking, 0⟩
        simpa [LockState.held, Session.held] using hwriter
      exact ⟨_, by
        rw [Multiset.replicate_succ]
        exact reachable_granted trivial hreach (readFirst_run hfree)⟩

/-- Three granted read locks on one record are counted. -/
theorem readersCount_threeReads :
    ∃ state, (lockSystem fun _ => True).Reachable state ∧
      (state.server.mutex ⟨.checking, 0⟩).readersCount.toInt = 3 := by
  obtain ⟨server, hreach⟩ := readFirst_reachable 3
  have hcount : (LockState.mk server (Multiset.replicate 3
      (.granted readFirst.reqControl {(⟨.checking, 0⟩, .read)}))).held.count
        (⟨.checking, 0⟩, .read) = 3 := by
    simp [LockState.held, Session.held]
  have hrecord := (readersCount_eq_readLocks hreach).1 ⟨.checking, 0⟩
  refine ⟨_, hreach, ?_⟩
  rw [hrecord.2.1 (by rw [hcount]; decide), hcount]
  rfl

/-- With 2^31 read locks granted on one record the `int` counter has wrapped. -/
theorem readersCount_wraps :
    ∃ state, (lockSystem fun _ => True).Reachable state ∧
      state.held.count (⟨.checking, 0⟩, .read) = 2 ^ 31 ∧
      (state.server.mutex ⟨.checking, 0⟩).readersCount.toInt = -2 ^ 31 := by
  obtain ⟨server, hreach⟩ := readFirst_reachable (2 ^ 31)
  have hcount : (LockState.mk server (Multiset.replicate (2 ^ 31)
      (.granted readFirst.reqControl {(⟨.checking, 0⟩, .read)}))).held.count
        (⟨.checking, 0⟩, .read) = 2 ^ 31 := by
    simp only [LockState.held, Multiset.map_replicate, Session.held, Multiset.sum_replicate,
      Multiset.count_nsmul, Multiset.count_singleton_self, mul_one]
  refine ⟨_, hreach, hcount, ?_⟩
  rw [(lockSystem_accounted hreach).matching.readers, hcount]
  decide

/-! ## Readers and writers -/

/-- A record with an outstanding write grant has no other outstanding grant. -/
def LockState.ReadWriteExclusive (state : LockState) : Prop :=
  ∀ record, (record, .write) ∈ state.outstanding →
    state.outstanding.count (record, .write) = 1 ∧ (record, .read) ∉ state.outstanding

/-- Requests made from transactions of the `Transition` constructor. -/
def FromTransition (req : GetLockReq) : Prop :=
  ∃ reqId transmitType user1 draws transition,
    Transition.new reqId transmitType user1 draws = some transition ∧
      req = (handlerGetLock reqId transition).reqControl

/-- No write lock is attempted on a free writer flag while somebody holds a
read lock on the record. -/
def NoWriteOverReaders (state : LockState) (action : LockAction) : Prop :=
  ∀ record, action = .call (.tryLockWrite record) →
    (state.server.mutex record).writerLock = false → (record, .read) ∉ state.held

/-- Giving a lock back keeps readers and writers of a record apart. -/
theorem read_not_mem_erase {own others : Multiset Lock} {record : RecordId} (lock : Lock)
    (hapart : (record, .write) ∈ own + others → (record, .read) ∉ own + others) :
    (record, .write) ∈ own.erase lock + others → (record, .read) ∉ own.erase lock + others := by
  have hle : own.erase lock + others ≤ own + others :=
    Multiset.add_le_add_right (Multiset.erase_le _ own)
  intro hmem hread
  exact hapart (Multiset.mem_of_le hle hmem) (Multiset.mem_of_le hle hread)

/-- One call keeps readers and writers of a record apart unless it takes a write
lock over a reader. -/
theorem read_not_mem_after {server : Server} {operation : ServerCall} {own others : Multiset Lock}
    (hmatches : Matches server.mutex (own + others))
    (hnone : ∀ target, operation = .tryLockWrite target →
      (server.mutex target).writerLock = false → (target, .read) ∉ own + others)
    {record : RecordId}
    (hapart : (record, .write) ∈ own + others → (record, .read) ∉ own + others) :
    (record, .write) ∈
        lockDiscipline.after operation (execute operation server).1 own + others →
      (record, .read) ∉
        lockDiscipline.after operation (execute operation server).1 own + others := by
  cases operation with
  | tryLockRead target =>
      cases hfree : (server.mutex target).writerLock with
      | true => simpa [execute, SpinlockRwMutex.tryLockRead_fst, hfree] using hapart
      | false =>
          -- The flag is free, so the new reader meets no write lock.
          simp only [execute, SpinlockRwMutex.tryLockRead_fst, hfree, after_tryLockRead,
            Bool.not_false, ↓reduceIte, Multiset.cons_add, Multiset.mem_cons,
            Prod.mk.injEq, reduceCtorEq, and_false, false_or, and_true, not_or]
          intro hmem
          refine ⟨?_, hapart hmem⟩
          rintro rfl
          exact Bool.false_ne_true (hfree.symm.trans (hmatches.writerLock_of_mem hmem))
  | tryLockWrite target =>
      cases hfree : (server.mutex target).writerLock with
      | true => simpa [execute, SpinlockRwMutex.tryLockWrite_fst, hfree] using hapart
      | false =>
          -- Nothing in the code excludes readers here, only the condition does.
          have hreaders := hnone target rfl hfree
          simp only [execute, SpinlockRwMutex.tryLockWrite_fst, hfree, after_tryLockWrite,
            Bool.not_false, ↓reduceIte, Multiset.cons_add, Multiset.mem_cons,
            Prod.mk.injEq, reduceCtorEq, and_false, false_or, and_true]
          rintro (rfl | hmem)
          · exact hreaders
          · exact hapart hmem
  | unlockRead target => exact read_not_mem_erase (target, .read) hapart
  | unlockWrite target => exact read_not_mem_erase (target, .write) hapart
  | loadBalance target => exact hapart
  | storeBalance target value => exact hapart

/-- In runs that never attempt a write lock over a reader, read locks and
write locks on one record exclude each other, also inside running handlers. -/
theorem read_not_mem_of_write_mem {state : LockState}
    (hreach : ((lockSystem admits).restrict NoWriteOverReaders).Reachable state) :
    ∀ record, (record, .write) ∈ state.held → (record, .read) ∉ state.held := by
  induction hreach with
  | @start state hinit =>
      obtain ⟨-, hnone⟩ := hinit
      intro record hmem
      simp [LockState.held, hnone] at hmem
  | @step state next action prior hstep ih =>
      have hinv := lockSystem_accounted prior.of_restrict
      rcases hstep.2.held_cases hinv.ok with
        ⟨-, hheld⟩ | ⟨operation, own, others, rfl, -, hbefore, -, hafter⟩
      · rw [hheld]
        exact ih
      · have hmatches := hinv.matching
        intro record
        specialize ih record
        rw [hbefore] at hmatches ih
        rw [hafter]
        apply read_not_mem_after hmatches _ ih
        intro target hcall hfree
        rw [← hbefore]
        exact hstep.1 target (congrArg LockAction.call hcall) hfree

/-- Runs of `Transition` requests in which no write lock is attempted over a
reader keep readers and writers apart. -/
theorem readWriteExclusive_of_noWriteOverReaders {state : LockState}
    (hreach : ((lockSystem FromTransition).restrict NoWriteOverReaders).Reachable state) :
    state.ReadWriteExclusive := by
  intro record hmem
  have hle := state.outstanding_le_held
  have hwriters := (lockSystem_accounted hreach.of_restrict).matching.writers record
  refine ⟨le_antisymm ((Multiset.count_le_of_le _ hle).trans hwriters)
    (Multiset.one_le_count_iff_mem.mpr hmem), ?_⟩
  intro hread
  exact read_not_mem_of_write_mem hreach record (Multiset.mem_of_le hle hmem)
    (Multiset.mem_of_le hle hread)

theorem balanceFirst_fromTransition :
    FromTransition (handlerGetLock 1 balanceFirst).reqControl :=
  ⟨1, .balance, ⟨0, by decide⟩, [], balanceFirst, balanceFirst_new, rfl⟩

theorem depositFirst_fromTransition :
    FromTransition (handlerGetLock 2 depositFirst).reqControl :=
  ⟨2, .depositChecking, ⟨0, by decide⟩, [], depositFirst, depositFirst_new, rfl⟩

/-- A deposit and a balance query of one account run at the same time. The deposit comes
first to the mutex, so that the query finds its flag set, and is granted alone. -/
theorem readWriteExclusive_depositAndBalance :
    ∃ state, ((lockSystem FromTransition).restrict NoWriteOverReaders).Reachable state ∧
      (⟨.checking, 0⟩, .write) ∈ state.outstanding ∧
      state.outstanding.count (⟨.checking, 0⟩, .write) = 1 ∧
      (⟨.checking, 0⟩, .read) ∉ state.outstanding := by
  have hstart : ((lockSystem FromTransition).restrict NoWriteOverReaders).Reachable
      ⟨⟨fun _ => 0, fun _ => {}⟩, 0⟩ := .start ⟨fun _ => rfl, rfl⟩
  have hother : ∀ state action, (∀ operation, action ≠ .call operation) →
      NoWriteOverReaders state action := fun _ _ hnot _ hcall => (hnot _ hcall).elim
  have hquery := hstart.step ⟨hother _ _ (by simp),
    LockStep.getLockArrives _ balanceFirst_fromTransition⟩
  have hdeposit := hquery.step ⟨hother _ _ (by simp),
    LockStep.getLockArrives _ depositFirst_fromTransition⟩
  have hlocked := hdeposit.step ⟨fun record _ _ => by simp [LockState.held, Session.held],
    LockStep.getLockCalls⟩
  rw [Multiset.cons_swap] at hlocked
  have hrefused := hlocked.step_restrict LockStep.getLockCalls fun _ hcall _ => nomatch hcall
  rw [Multiset.cons_swap] at hrefused
  have hanswered := hrefused.step ⟨hother _ _ (by simp), LockStep.getLockAnswers⟩
  refine ⟨_, hanswered, ?_, readWriteExclusive_of_noWriteOverReaders hanswered _ ?_⟩
  · decide
  · decide

/-- A balance query and then a deposit are both granted on one record: the
deposit's `try_lock_write` does not see the reader. -/
theorem balance_deposit_granted :
    ∃ state, (lockSystem FromTransition).Reachable state ∧ ¬ state.ReadWriteExclusive := by
  have hstart : (lockSystem FromTransition).Reachable ⟨⟨fun _ => 0, fun _ => {}⟩, 0⟩ :=
    .start ⟨fun _ => rfl, rfl⟩
  have hbalance := reachable_granted balanceFirst_fromTransition hstart (by decide)
  have hdeposit := reachable_granted depositFirst_fromTransition hbalance (by decide)
  refine ⟨_, hdeposit, ?_⟩
  intro hexclusive
  have hrecord := hexclusive ⟨.checking, 0⟩ (by decide)
  exact absurd hrecord.2 (by decide)

end BenchBF3.SmallBank
