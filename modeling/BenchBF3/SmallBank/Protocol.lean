import Mathlib.Algebra.Order.BigOperators.Group.Finset
import BenchBF3.Foundation.System
import BenchBF3.SmallBank.Server
import BenchBF3.SmallBank.Transition

/-! # Three-message transactions with atomic handlers

Every transaction keeps its own `Transition` and goes through GET_DATA,
GET_LOCK and FINISH; the server executes each handler as one atomic step, and
the requests of all transactions interleave freely. A transaction that was
granted its write locks is the only one that can change those records until
its FINISH.
-/

namespace BenchBF3.SmallBank

open Foundation Foundation.Program

/-- Where a transaction is, with the message that is under way. -/
inductive Phase
  | idle
  | getData (transition : Transition) (req : RpcMsgReq GetDataReq)
  | gotData (transition : Transition) (resp : RpcMsgResp GetDataResp)
  | getLock (transition : Transition) (req : RpcMsgReq GetLockReq)
  | refused (transition : Transition)
  | granted (transition : Transition) (resp : RpcMsgResp GetLockResp)
  | finish (transition : Transition) (req : RpcMsgReq FinishReq)
  | finished (transition : Transition)

/-- The locks a transaction asks for. -/
def Transition.locks (transition : Transition) : Multiset Lock :=
  transition.toUsers.held transition.lock

/-- What a transaction changes, it asks to lock for writing. -/
theorem Transition.Shape.write_mem_locks {transition : Transition} (hshape : transition.Shape)
    {part : Part} (hchanged : transition.changed.get part = true) :
    (transition.record part, .write) ∈ transition.locks := by
  have hlock := hshape.changed_writeLock part hchanged
  cases part <;> simp only [PerPart.get] at hlock <;>
    simp [Transition.locks, Users.held, LockType.held, hlock]

namespace Phase

/-- The transaction between its successful GET_LOCK and its FINISH. -/
def grant : Phase → Option Transition
  | granted transition _ => some transition
  | finish transition _ => some transition
  | _ => none

def locks (phase : Phase) : Multiset Lock := (phase.grant.map Transition.locks).getD 0

/-- Messages are those the client builds from its own transaction. -/
def Ok : Phase → Prop
  | idle => True
  | getData transition req => transition.Shape ∧ req = handlerGetData transition.reqId transition
  | gotData transition _ => transition.Shape
  | getLock transition req => transition.Shape ∧ req = handlerGetLock transition.reqId transition
  | refused transition => transition.Shape
  | granted transition _ => transition.Shape
  | finish transition req => transition.Shape ∧
      ∃ stale, req = handlerFinish transition.reqId transition stale
  | finished transition => transition.Shape

end Phase

/-- The server's tables and all transactions of all clients. -/
structure Bank (Tx : Type) where
  server : Server
  phase : Tx → Phase

/-- A step is one message event of one transaction. -/
inductive BankAction (Tx : Type)
  | sendGetData (tx : Tx)
  | getDataHandler (tx : Tx)
  | sendGetLock (tx : Tx)
  | getLockHandler (tx : Tx)
  | sendFinish (tx : Tx)
  | finishHandler (tx : Tx)

def BankAction.tx {Tx : Type} : BankAction Tx → Tx
  | sendGetData tx | getDataHandler tx | sendGetLock tx
  | getLockHandler tx | sendFinish tx | finishHandler tx => tx

variable {Tx : Type} [DecidableEq Tx]

/-- The bank after a step of one transaction. -/
def Bank.move (bank : Bank Tx) (server : Server) (tx : Tx) (phase : Phase) : Bank Tx :=
  ⟨server, Function.update bank.phase tx phase⟩

@[simp] theorem Bank.move_server (bank : Bank Tx) (server : Server) (tx : Tx) (phase : Phase) :
    (bank.move server tx phase).server = server := rfl

@[simp] theorem Bank.move_phase_self (bank : Bank Tx) (server : Server) (tx : Tx)
    (phase : Phase) : (bank.move server tx phase).phase tx = phase := by
  simp [Bank.move]

@[simp] theorem Bank.move_move (bank : Bank Tx) (server server' : Server) (tx : Tx)
    (phase phase' : Phase) :
    (bank.move server tx phase).move server' tx phase' = bank.move server' tx phase' := by
  simp [Bank.move]

/-- Buffers are reused, so the fields that a handler does not write hold any
`stale` values. -/
inductive BankStep : Bank Tx → BankAction Tx → Bank Tx → Prop
  | sendGetData {bank : Bank Tx} {tx : Tx} {reqId : BitVec 32} {transmitType : TransmitType}
      {user1 : Fin numAccounts} {draws : List (Fin numAccounts)} {transition : Transition}
      (hphase : bank.phase tx = .idle)
      (hnew : Transition.new reqId transmitType user1 draws = some transition) :
      BankStep bank (.sendGetData tx) (bank.move bank.server tx
        (.getData transition (handlerGetData transition.reqId transition)))
  | getDataHandler {bank : Bank Tx} {tx : Tx} {transition : Transition}
      {req : RpcMsgReq GetDataReq} (stale : GetDataResp)
      (hphase : bank.phase tx = .getData transition req) :
      BankStep bank (.getDataHandler tx)
        (bank.move ((getDataHandler req stale).run execute bank.server).2 tx
          (.gotData transition ((getDataHandler req stale).run execute bank.server).1))
  | sendGetLock {bank : Bank Tx} {tx : Tx} {transition transition' : Transition}
      {resp : RpcMsgResp GetDataResp} (hphase : bank.phase tx = .gotData transition resp)
      (hcallback : callbackGetData transition.reqId resp transition = some transition') :
      BankStep bank (.sendGetLock tx) (bank.move bank.server tx
        (.getLock transition' (handlerGetLock transition'.reqId transition')))
  | getLockHandler {bank : Bank Tx} {tx : Tx} {transition : Transition}
      {req : RpcMsgReq GetLockReq} (hphase : bank.phase tx = .getLock transition req) :
      BankStep bank (.getLockHandler tx)
        (bank.move ((getLockHandler req).run execute bank.server).2 tx
          (if ((getLockHandler req).run execute bank.server).1.respControl.success then
            .granted transition ((getLockHandler req).run execute bank.server).1
          else .refused transition))
  | sendFinish {bank : Bank Tx} {tx : Tx} {transition : Transition}
      {resp : RpcMsgResp GetLockResp} (stale : PerPart ℚ)
      (hphase : bank.phase tx = .granted transition resp)
      (hcallback : callbackGetLock transition.reqId resp = some true) :
      BankStep bank (.sendFinish tx) (bank.move bank.server tx
        (.finish transition (handlerFinish transition.reqId transition stale)))
  | finishHandler {bank : Bank Tx} {tx : Tx} {transition : Transition}
      {req : RpcMsgReq FinishReq} (hphase : bank.phase tx = .finish transition req) :
      BankStep bank (.finishHandler tx)
        (bank.move ((finishHandler req).run execute bank.server).2 tx (.finished transition))

/-- All runs from given tables with all locks free. -/
def bankSystem (balance : RecordId → ℚ) : System (Bank Tx) (BankAction Tx) where
  start bank := bank.server = ⟨balance, fun _ => {}⟩ ∧ ∀ tx, bank.phase tx = .idle
  step := BankStep

/-! ## What one step does -/

section Step

variable {bank next : Bank Tx} {action : BankAction Tx}

theorem BankStep.phase_of_ne (hstep : BankStep bank action next) {other : Tx}
    (hne : other ≠ action.tx) : next.phase other = bank.phase other := by
  cases hstep <;> exact Function.update_of_ne hne _ _

theorem BankStep.phase_ok (hstep : BankStep bank action next)
    (hok : ∀ tx, (bank.phase tx).Ok) : ∀ tx, (next.phase tx).Ok := by
  intro tx
  by_cases heq : tx = action.tx
  · subst tx
    have hbefore := hok action.tx
    cases hstep with
    | sendGetData hphase hnew =>
        simp only [BankAction.tx, Bank.move, Function.update_self]
        exact ⟨Transition.new_shape hnew, rfl⟩
    | getDataHandler stale hphase =>
        simp only [BankAction.tx, Bank.move, Function.update_self, hphase] at hbefore ⊢
        exact hbefore.1
    | @sendGetLock tx transition transition' resp hphase hcallback =>
        simp only [BankAction.tx, Bank.move, Function.update_self, hphase] at hbefore ⊢
        unfold callbackGetData at hcallback
        split at hcallback
        next =>
          rw [← Option.some.inj hcallback]
          exact ⟨hbefore.withBalance _, rfl⟩
        next => cases hcallback
    | getLockHandler hphase =>
        simp only [BankAction.tx, Bank.move, Function.update_self, hphase] at hbefore ⊢
        split <;> exact hbefore.1
    | sendFinish stale hphase hcallback =>
        simp only [BankAction.tx, Bank.move, Function.update_self, hphase] at hbefore ⊢
        exact ⟨hbefore, stale, rfl⟩
    | finishHandler hphase =>
        simp only [BankAction.tx, Bank.move, Function.update_self, hphase] at hbefore ⊢
        exact hbefore.1
  · rw [hstep.phase_of_ne heq]
    exact hok tx

/-- The acting transaction exchanges the locks of its old phase for those of
its new one, whatever the others hold. -/
theorem BankStep.matches_locks (hstep : BankStep bank action next)
    (hok : (bank.phase action.tx).Ok) {others : Multiset Lock}
    (hmatches : Matches bank.server.mutex ((bank.phase action.tx).locks + others)) :
    Matches next.server.mutex ((next.phase action.tx).locks + others) := by
  cases hstep with
  | sendGetData hphase hnew =>
      simp only [BankAction.tx, Bank.move, Function.update_self, hphase] at hmatches ⊢
      exact hmatches
  | getDataHandler stale hphase =>
      simp only [BankAction.tx, Bank.move, Function.update_self, hphase,
        getDataHandler_run] at hmatches ⊢
      exact hmatches
  | sendGetLock hphase hcallback =>
      simp only [BankAction.tx, Bank.move, Function.update_self, hphase] at hmatches ⊢
      exact hmatches
  | @getLockHandler tx transition req hphase =>
      simp only [BankAction.tx, Bank.move, Function.update_self, hphase] at hok hmatches ⊢
      have hnone : (Phase.getLock transition req).locks = 0 := rfl
      rw [hnone, zero_add] at hmatches
      have hnext := getLockHandler_run_matches req hmatches
      split
      next hsuccess =>
        rw [if_pos hsuccess, hok.2] at hnext
        rw [hok.2]
        exact hnext
      next hfailure =>
        rw [if_neg hfailure] at hnext
        exact hnext
  | sendFinish stale hphase hcallback =>
      simp only [BankAction.tx, Bank.move, Function.update_self, hphase] at hmatches ⊢
      exact hmatches
  | @finishHandler tx transition req hphase =>
      simp only [BankAction.tx, Bank.move, Function.update_self, hphase] at hok hmatches ⊢
      obtain ⟨-, stale, rfl⟩ := hok
      have hnone : (Phase.finished transition).locks = 0 := rfl
      rw [hnone, zero_add]
      exact finishHandler_run_matches _ hmatches

/-- Balances change only in `finish_handler`, and only where the transaction
flags a change. -/
theorem BankStep.balance_cases (hstep : BankStep bank action next) :
    (next.server.balance = bank.server.balance ∧ ∀ tx, action ≠ .finishHandler tx) ∨
      ∃ tx transition req, action = .finishHandler tx ∧
        bank.phase tx = .finish transition req ∧
        next.server.balance = storeBalances req.reqControl bank.server.balance := by
  cases hstep with
  | sendGetData hphase hnew => exact .inl ⟨rfl, nofun⟩
  | getDataHandler stale hphase => exact .inl ⟨by simp [getDataHandler_run], nofun⟩
  | sendGetLock hphase hcallback => exact .inl ⟨rfl, nofun⟩
  | getLockHandler hphase => exact .inl ⟨getLockHandler_run_balance _ _, nofun⟩
  | sendFinish stale hphase hcallback => exact .inl ⟨rfl, nofun⟩
  | finishHandler hphase =>
      exact .inr ⟨_, _, _, rfl, hphase, finishHandler_run_balance _ _⟩

/-- Only its own FINISH takes a granted transaction's grant away. -/
theorem BankStep.grant_eq (hstep : BankStep bank action next) {tx : Tx}
    {transition : Transition} (hgrant : (bank.phase tx).grant = some transition)
    (hnot : action ≠ .finishHandler tx) : (next.phase tx).grant = some transition := by
  by_cases heq : tx = action.tx
  · subst tx
    cases hstep with
    | sendFinish stale hphase hcallback =>
        simp only [BankAction.tx, Bank.move, Function.update_self, hphase] at hgrant ⊢
        exact hgrant
    | finishHandler hphase => exact (hnot rfl).elim
    | sendGetData hphase hnew =>
        simp only [BankAction.tx, hphase] at hgrant
        cases hgrant
    | getDataHandler stale hphase | sendGetLock hphase hcallback | getLockHandler hphase =>
        simp only [BankAction.tx, hphase] at hgrant
        cases hgrant
  · rw [hstep.phase_of_ne heq]
    exact hgrant

end Step

/-! ## The lock invariant -/

/-- Finitely many transactions have started, and the mutexes hold exactly the
locks of those between GET_LOCK and FINISH. -/
structure Bank.Accounted (bank : Bank Tx) : Prop where
  ok : ∀ tx, (bank.phase tx).Ok
  locks : ∃ active : Finset Tx, (∀ tx, tx ∉ active → bank.phase tx = .idle) ∧
    Matches bank.server.mutex (∑ tx ∈ active, (bank.phase tx).locks)

theorem BankStep.accounted {bank next : Bank Tx} {action : BankAction Tx}
    (hstep : BankStep bank action next) (hinv : bank.Accounted) : next.Accounted := by
  refine ⟨hstep.phase_ok hinv.ok, ?_⟩
  obtain ⟨active, hidle, hmatches⟩ := hinv.locks
  refine ⟨insert action.tx (active.erase action.tx), ?_, ?_⟩
  · intro tx htx
    rw [Finset.mem_insert, Finset.mem_erase, not_or, not_and] at htx
    rw [hstep.phase_of_ne htx.1]
    exact hidle tx (htx.2 htx.1)
  · -- Split off the acting transaction; nothing changes for the others.
    have hbefore : ∑ tx ∈ active, (bank.phase tx).locks =
        (bank.phase action.tx).locks + ∑ tx ∈ active.erase action.tx, (bank.phase tx).locks := by
      by_cases hmem : action.tx ∈ active
      · exact (Finset.add_sum_erase active (fun tx => (bank.phase tx).locks) hmem).symm
      · rw [hidle _ hmem, Finset.erase_eq_of_notMem hmem]
        exact (zero_add _).symm
    have hothers : ∑ tx ∈ active.erase action.tx, (next.phase tx).locks =
        ∑ tx ∈ active.erase action.tx, (bank.phase tx).locks := by
      apply Finset.sum_congr rfl
      intro tx htx
      rw [hstep.phase_of_ne (Finset.ne_of_mem_erase htx)]
    rw [hbefore] at hmatches
    rw [Finset.sum_insert (Finset.notMem_erase _ _), hothers]
    exact hstep.matches_locks (hinv.ok _) hmatches

theorem bankSystem_accounted {balance : RecordId → ℚ} {bank : Bank Tx}
    (hreach : (bankSystem balance).Reachable bank) : bank.Accounted := by
  apply hreach.invariant
  · rintro ⟨server, phase⟩ ⟨hserver, hidle⟩
    dsimp only at hserver hidle
    subst server
    refine ⟨?_, ∅, fun tx _ => hidle tx, by simpa using Matches.initial⟩
    intro tx
    change (phase tx).Ok
    rw [hidle tx]
    trivial
  · intro state action next _ hinv hstep
    exact BankStep.accounted hstep hinv

/-- The transaction holds the write grant on a record: its GET_LOCK succeeded,
its FINISH has not been executed, and the record is among its write locks. -/
def Bank.WriteGranted (bank : Bank Tx) (tx : Tx) (record : RecordId) : Prop :=
  ∃ transition, (bank.phase tx).grant = some transition ∧ (record, .write) ∈ transition.locks

omit [DecidableEq Tx] in
theorem Bank.WriteGranted.mem_locks {bank : Bank Tx} {tx : Tx} {record : RecordId}
    (hgranted : bank.WriteGranted tx record) : (record, .write) ∈ (bank.phase tx).locks := by
  obtain ⟨transition, hgrant, hmem⟩ := hgranted
  simpa [Phase.locks, hgrant] using hmem

/-- Write grants exclude each other, and each of them shows in the mutex. -/
theorem Bank.Accounted.writeGranted_unique {bank : Bank Tx} (hinv : bank.Accounted)
    {tx : Tx} {record : RecordId} (hgranted : bank.WriteGranted tx record) :
    (bank.server.mutex record).writerLock = true ∧
      ∀ other, bank.WriteGranted other record → other = tx := by
  obtain ⟨active, hidle, hmatches⟩ := hinv.locks
  have hactive : ∀ {other}, bank.WriteGranted other record → other ∈ active := by
    intro other hother
    by_contra hnot
    have hmem := hother.mem_locks
    rw [hidle other hnot] at hmem
    exact Multiset.notMem_zero _ hmem
  constructor
  · apply hmatches.writerLock_of_mem
    exact Multiset.mem_sum.mpr ⟨tx, hactive hgranted, hgranted.mem_locks⟩
  · intro other hother
    by_contra hne
    -- Two holders would make two write locks in the ledger.
    have hpair : (bank.phase other).locks + (bank.phase tx).locks ≤
        ∑ tx ∈ active, (bank.phase tx).locks := by
      have hsubset : {other, tx} ⊆ active := by
        rw [Finset.insert_subset_iff, Finset.singleton_subset_iff]
        exact ⟨hactive hother, hactive hgranted⟩
      rw [← Finset.sum_pair (f := fun tx => (bank.phase tx).locks) hne]
      exact Finset.sum_le_sum_of_subset hsubset
    have hcount := (Multiset.count_le_of_le (record, .write) hpair).trans
      (hmatches.writers record)
    rw [Multiset.count_add] at hcount
    have h₁ := Multiset.one_le_count_iff_mem.mpr hother.mem_locks
    have h₂ := Multiset.one_le_count_iff_mem.mpr hgranted.mem_locks
    omega

/-- A FINISH request of the protocol changes only records under its own write
grant. -/
theorem Bank.Accounted.writeGranted_of_changed {bank next : Bank Tx} {action : BankAction Tx}
    (hinv : bank.Accounted) (hstep : BankStep bank action next) {record : RecordId}
    (hchanged : next.server.balance record ≠ bank.server.balance record) :
    ∃ tx, action = .finishHandler tx ∧ bank.WriteGranted tx record := by
  rcases hstep.balance_cases with ⟨hsame, -⟩ | ⟨tx, transition, req, rfl, hphase, hstore⟩
  · exact (hchanged (congrFun hsame record)).elim
  · refine ⟨tx, rfl, transition, by rw [hphase]; rfl, ?_⟩
    have hok := hinv.ok tx
    rw [hphase] at hok
    obtain ⟨hshape, stale, rfl⟩ := hok
    by_contra hnot
    apply hchanged
    rw [hstore]
    apply storeBalances_of_unchanged
    rintro part hpart rfl
    exact hnot (hshape.write_mem_locks hpart)

/-- Between a transaction's grant and its FINISH its write-granted records do
not change. -/
theorem Bank.Accounted.balance_eq_of_writeGranted {bank next : Bank Tx}
    {action : BankAction Tx} (hinv : bank.Accounted) (hstep : BankStep bank action next)
    {tx : Tx} {record : RecordId} (hgranted : bank.WriteGranted tx record)
    (hnot : action ≠ .finishHandler tx) :
    next.server.balance record = bank.server.balance record := by
  by_contra hchanged
  obtain ⟨other, rfl, hother⟩ := hinv.writeGranted_of_changed hstep hchanged
  exact hnot (by rw [(hinv.writeGranted_unique hgranted).2 other hother])

/-- In every run, a balance is changed only by the FINISH of a transaction
that holds the write grant on the record at that moment; and as long as the
FINISH of a write-granted transaction has not been executed, it keeps its
grant and the record keeps its balance. -/
theorem balance_stable_under_writeGrant {balance : RecordId → ℚ} {bank : Bank Tx}
    (hreach : (bankSystem balance).Reachable bank) :
    (∀ action next record, BankStep bank action next →
      next.server.balance record ≠ bank.server.balance record →
      ∃ tx, action = .finishHandler tx ∧ bank.WriteGranted tx record) ∧
    (∀ tx record later, bank.WriteGranted tx record →
      ((bankSystem balance).restrict fun _ action => action ≠ .finishHandler tx).Path bank later →
      later.WriteGranted tx record ∧
        later.server.balance record = bank.server.balance record) := by
  constructor
  · intro action next record hstep hchanged
    exact (bankSystem_accounted hreach).writeGranted_of_changed hstep hchanged
  · intro tx record later hgranted hpath
    have hlater : (bankSystem balance).Reachable later ∧ later.WriteGranted tx record ∧
        later.server.balance record = bank.server.balance record := by
      induction hpath with
      | refl => exact ⟨hreach, hgranted, rfl⟩
      | step _ hstep ih =>
          obtain ⟨hprior, ⟨transition, hgrant, hmem⟩, hbalance⟩ := ih
          refine ⟨hprior.step hstep.2, ⟨transition, ?_, hmem⟩, ?_⟩
          · exact BankStep.grant_eq hstep.2 hgrant hstep.1
          · rw [← hbalance]
            exact (bankSystem_accounted hprior).balance_eq_of_writeGranted hstep.2
              ⟨transition, hgrant, hmem⟩ hstep.1
    exact hlater.2

/-! ## Stretches of one transaction's run -/

/-- What the GET_DATA of a transaction brings back. -/
def Transition.fetched (transition : Transition) (server : Server) : RpcMsgResp GetDataResp :=
  ((getDataHandler (handlerGetData transition.reqId transition) ⟨.fill 0⟩).run execute server).1

section Stretches

variable (balance : RecordId → ℚ) {allowed : Bank Tx → BankAction Tx → Prop}

theorem BankStep.path {bank next : Bank Tx} {action : BankAction Tx}
    (hstep : BankStep bank action next) (hallowed : allowed bank action) :
    ((bankSystem balance).restrict allowed).Path bank next :=
  System.Path.single ⟨hallowed, hstep⟩

variable {bank : Bank Tx} {tx : Tx} {transition transition' : Transition}
  (hallowed : ∀ bank action, (∀ tx, action ≠ .getLockHandler tx) → allowed bank action)

include hallowed

/-- A transaction starts and reads its balances. -/
theorem fetch_path {reqId : BitVec 32} {transmitType : TransmitType}
    {user1 : Fin numAccounts} {draws : List (Fin numAccounts)}
    (hnew : Transition.new reqId transmitType user1 draws = some transition)
    (hidle : bank.phase tx = .idle) :
    ((bankSystem balance).restrict allowed).Path bank
      (bank.move bank.server tx (.gotData transition (transition.fetched bank.server))) := by
  have hsend := (BankStep.sendGetData hidle hnew).path balance (hallowed _ _ nofun)
  have hserve := (BankStep.getDataHandler ⟨.fill 0⟩ (bank.move_phase_self bank.server tx
    (.getData transition (handlerGetData transition.reqId transition)))).path
    balance (hallowed _ _ nofun)
  rw [Bank.move_move, Bank.move_server, getDataHandler_run] at hserve
  rw [Transition.fetched, getDataHandler_run]
  exact hsend.trans hserve

/-- A transaction with its balances asks for its locks and gets them. -/
theorem grant_path {resp : RpcMsgResp GetDataResp}
    (hphase : bank.phase tx = .gotData transition resp)
    (hcallback : callbackGetData transition.reqId resp transition = some transition')
    (hlock : allowed (bank.move bank.server tx (.getLock transition'
      (handlerGetLock transition'.reqId transition'))) (.getLockHandler tx))
    (hsuccess : ((getLockHandler (handlerGetLock transition'.reqId transition')).run execute
      bank.server).1.respControl.success = true) :
    ((bankSystem balance).restrict allowed).Path bank
      (bank.move ((getLockHandler (handlerGetLock transition'.reqId transition')).run execute
        bank.server).2 tx (.granted transition' ((getLockHandler
          (handlerGetLock transition'.reqId transition')).run execute bank.server).1)) := by
  have hsend := (BankStep.sendGetLock hphase hcallback).path balance (hallowed _ _ nofun)
  have hserve := (BankStep.getLockHandler (bank.move_phase_self bank.server tx
    (.getLock transition' (handlerGetLock transition'.reqId transition')))).path balance hlock
  rw [Bank.move_move, Bank.move_server, if_pos hsuccess] at hserve
  exact hsend.trans hserve

/-- A granted transaction finishes. -/
theorem finish_path {resp : RpcMsgResp GetLockResp}
    (hphase : bank.phase tx = .granted transition resp)
    (hcallback : callbackGetLock transition.reqId resp = some true) :
    ((bankSystem balance).restrict allowed).Path bank
      (bank.move ((finishHandler (handlerFinish transition.reqId transition (.fill 0))).run
        execute bank.server).2 tx (.finished transition)) := by
  have hsend := (BankStep.sendFinish (.fill 0) hphase hcallback).path balance (hallowed _ _ nofun)
  have hserve := (BankStep.finishHandler (bank.move_phase_self bank.server tx
    (.finish transition (handlerFinish transition.reqId transition (.fill 0))))).path
    balance (hallowed _ _ nofun)
  rw [Bank.move_move, Bank.move_server] at hserve
  exact hsend.trans hserve

end Stretches

/-- Two deposits to one account. Both have read it; one is granted its lock while the
GET_LOCK of the other is under way, which will be refused. -/
theorem deposits_contend :
    ∃ bank : Bank Bool, (bankSystem fun _ => 0).Reachable bank ∧
      bank.WriteGranted false ⟨.checking, 0⟩ ∧
      ∃ transition req, bank.phase true = .getLock transition req ∧
        ((getLockHandler req).run execute bank.server).1.respControl.success = false := by
  let start : Bank Bool := ⟨⟨fun _ => 0, fun _ => {}⟩, fun _ => .idle⟩
  have hstart : ((bankSystem fun _ => 0).restrict fun _ _ => True).Reachable start :=
    .start ⟨rfl, fun _ => rfl⟩
  have hidle : start.phase false = .idle := rfl
  have hfetched := hstart.path (fetch_path _ (fun _ _ _ => trivial) depositFirst_new hidle)
  have hboth := hfetched.path (@fetch_path Bool _ _ _ _ true _ (fun _ _ _ => trivial) _ _ _ _
    depositFirst_new rfl)
  have hgranted := hboth.path (@grant_path Bool _ _ _ _ false _ _ (fun _ _ _ => trivial) _ rfl
    rfl trivial rfl)
  have hasks := hgranted.step_restrict (@BankStep.sendGetLock Bool _ _ true _ _ _ rfl rfl) trivial
  refine ⟨_, hasks.of_restrict, ⟨_, rfl, ?_⟩, _, _, rfl, rfl⟩
  decide

/-- While a deposit holds its lock the other one is refused, and the balance stays. -/
theorem balance_stable_twoDeposits :
    ∃ bank later : Bank Bool, bank.WriteGranted false ⟨.checking, 0⟩ ∧
      ((bankSystem fun _ => 0).restrict fun _ action =>
        action ≠ .finishHandler false).Path bank later ∧
      (∃ transition, later.phase true = .refused transition) ∧
      later.WriteGranted false ⟨.checking, 0⟩ ∧
      later.server.balance ⟨.checking, 0⟩ = bank.server.balance ⟨.checking, 0⟩ := by
  obtain ⟨bank, hreach, hgranted, transition, req, hphase, hrefused⟩ := deposits_contend
  have hpath : ((bankSystem fun _ => 0).restrict fun _ action =>
      action ≠ .finishHandler false).Path bank _ :=
    (BankStep.getLockHandler hphase).path _ nofun
  refine ⟨bank, _, hgranted, hpath, ⟨transition, ?_⟩, ?_⟩
  · rw [Bank.move_phase_self, hrefused]
    rfl
  · exact (balance_stable_under_writeGrant hreach).2 _ _ _ hgranted hpath

end BenchBF3.SmallBank
