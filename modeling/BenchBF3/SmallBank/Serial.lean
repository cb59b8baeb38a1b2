import Mathlib.Tactic.NormNum
import Mathlib.Tactic.Ring
import BenchBF3.SmallBank.Protocol

/-! # Serial executions

A transaction that runs alone reads, locks and finishes with no other request
in between. The tables of an interleaved run should equal those of running its
finished transactions alone, one after another. GET_DATA reads before GET_LOCK
and nothing checks the balances again, so this holds for the runs whose granted
transactions still see the balances they read, and fails in general.
-/

namespace BenchBF3.SmallBank

open Foundation Foundation.Program

/-! ## One transaction alone -/

/-- All three messages of a transaction, with no other request in between. -/
def Transition.runAlone (transition : Transition) (server : Server) : Server :=
  match callbackGetData transition.reqId (transition.fetched server) transition with
  | none => server
  | some transition =>
      let outcome := (getLockHandler (handlerGetLock transition.reqId transition)).run execute
        server
      match callbackGetLock transition.reqId outcome.1 with
      | some true =>
          ((finishHandler (handlerFinish transition.reqId transition (.fill 0))).run execute
            outcome.2).2
      | _ => outcome.2

/-- The transaction with the balances that it reads from the tables. -/
def Transition.reading (transition : Transition) (balance : RecordId → ℚ) : Transition :=
  { transition with
    balance := loadBalances (handlerGetData transition.reqId transition).reqControl (.fill 0)
      balance }

/-- The balances that a transaction computes from the tables it sees. -/
def Transition.apply (transition : Transition) (balance : RecordId → ℚ) : RecordId → ℚ :=
  storeBalances (handlerFinish transition.reqId (transition.reading balance)
    (.fill 0)).reqControl balance

theorem callbackGetData_fetched (transition : Transition) (server : Server) :
    callbackGetData transition.reqId (transition.fetched server) transition =
      some (transition.reading server.balance) := by
  simp [callbackGetData, Transition.fetched, getDataHandler_run, respHeaderOk, handlerGetData,
    Transition.reading]

/-- The header of every GET_LOCK response passes the assertions of the callback. -/
theorem callbackGetLock_run (transition : Transition) (server : Server) :
    callbackGetLock transition.reqId ((getLockHandler
      (handlerGetLock transition.reqId transition)).run execute server).1 =
      some ((getLockHandler (handlerGetLock transition.reqId transition)).run execute
        server).1.respControl.success := by
  have hcommon : ((getLockHandler (handlerGetLock transition.reqId transition)).run execute
      server).1.respCommon = ⟨.getLock, transition.reqId, 0⟩ := by
    simp only [getLockHandler, run_bind, pure_eq_ret]
    split
    next => rw [run_bind]; rfl
    next => rfl
  simp [callbackGetLock, hcommon, respHeaderOk]

/-- With all locks free GET_LOCK succeeds. -/
theorem Transition.Shape.granted_of_free {transition : Transition} (hshape : transition.Shape)
    {server : Server} (hfree : Matches server.mutex 0) :
    ((getLockHandler (handlerGetLock transition.reqId transition)).run execute
      server).1.respControl.success = true := by
  rw [getLockHandler_run_success]
  · intro part _
    have hflag := hfree.writerLock
      ((handlerGetLock transition.reqId transition).reqControl.record part)
    simpa using hflag
  · intro part other hne hpart hother
    exact hshape.record_ne hne hpart hother

/-- With all locks free a transaction alone is granted its locks, stores what
it computed from the tables and leaves all locks free. -/
theorem Transition.Shape.runAlone_spec {transition : Transition} (hshape : transition.Shape)
    {server : Server} (hfree : Matches server.mutex 0) :
    (transition.runAlone server).balance = transition.apply server.balance ∧
      Matches (transition.runAlone server).mutex 0 := by
  have hreading : (transition.reading server.balance).Shape := hshape.withBalance _
  have hsuccess := hreading.granted_of_free hfree
  have hgranted := getLockHandler_run_matches (handlerGetLock transition.reqId
    (transition.reading server.balance)) hfree
  have hid : (transition.reading server.balance).reqId = transition.reqId := rfl
  have hcallback := callbackGetLock_run (transition.reading server.balance) server
  rw [hsuccess, hid] at hcallback
  rw [hid] at hsuccess
  rw [if_pos hsuccess] at hgranted
  simp only [Transition.runAlone, callbackGetData_fetched, hid, hcallback]
  constructor
  · rw [finishHandler_run_balance, getLockHandler_run_balance]
    rfl
  · exact finishHandler_run_matches _ hgranted

/-- Transactions one after another, each alone. -/
def runSerially (order : List Transition) (server : Server) : Server :=
  order.foldl (fun server transition => transition.runAlone server) server

theorem runSerially_balance {order : List Transition}
    (hshape : ∀ transition ∈ order, transition.Shape) {server : Server}
    (hfree : Matches server.mutex 0) :
    (runSerially order server).balance =
      order.foldl (fun balance transition => transition.apply balance) server.balance := by
  induction order generalizing server with
  | nil => rfl
  | cons transition rest ih =>
      rw [List.forall_mem_cons] at hshape
      obtain ⟨hbalance, hnext⟩ := hshape.1.runAlone_spec hfree
      rw [List.foldl_cons, ← hbalance]
      exact ih hshape.2 hnext

/-- GET_DATA brings the balances of all records that will change. -/
theorem Transition.Shape.loadBalances_get {transition : Transition} (hshape : transition.Shape)
    {stale : PerPart ℚ} {balance : RecordId → ℚ} {part : Part}
    (hpart : transition.changed.get part = true) :
    (loadBalances (handlerGetData transition.reqId transition).reqControl stale balance).get part =
      balance (transition.record part) := by
  have hlock := hshape.changed_writeLock part hpart
  cases part <;> simp only [PerPart.get] at hlock <;>
    simp [loadBalances, handlerGetData, PerPart.get, hlock]

/-- What is written depends only on the balances of the records that change. -/
theorem Transition.Shape.store_eq_apply {transition : Transition} (hshape : transition.Shape)
    {balance : RecordId → ℚ} (stale : PerPart ℚ)
    (hcurrent : ∀ part, transition.changed.get part = true →
      transition.balance.get part = balance (transition.record part)) :
    storeBalances (handlerFinish transition.reqId transition stale).reqControl balance =
      transition.apply balance := by
  have hstore : storeBalances (handlerFinish transition.reqId transition stale).reqControl =
      storeBalances (handlerFinish transition.reqId (transition.reading balance)
        (.fill 0)).reqControl := by
    apply storeBalances_congr
    · rfl
    · rfl
    · apply hshape.computes
      intro part hpart
      rw [hcurrent part hpart]
      exact (hshape.loadBalances_get hpart).symm
  exact congrFun hstore balance

/-! ## Serializable runs -/

variable {Tx : Type} [DecidableEq Tx]

/-- The tables are those of running exactly the finished transactions one
after another, in some order, from the initial tables. -/
def Bank.Serializable (balance : RecordId → ℚ) (bank : Bank Tx) : Prop :=
  ∃ order : List (Tx × Transition), (order.map Prod.fst).Nodup ∧
    (∀ tx transition, (tx, transition) ∈ order ↔ bank.phase tx = .finished transition) ∧
    bank.server.balance =
      (runSerially (order.map Prod.snd) ⟨balance, fun _ => {}⟩).balance

/-- Every started transaction was refused or has finished. -/
def Bank.Quiescent (bank : Bank Tx) : Prop :=
  ∀ tx, bank.phase tx = .idle ∨ (∃ transition, bank.phase tx = .refused transition) ∨
    ∃ transition, bank.phase tx = .finished transition

/-- A GET_LOCK request that finds all its writer flags free comes from a
transaction whose changed records still have the balances it read. -/
def ReadsCurrent (bank : Bank Tx) (action : BankAction Tx) : Prop :=
  ∀ tx transition req, action = .getLockHandler tx → bank.phase tx = .getLock transition req →
    (∀ part, transition.lock.get part ≠ .noLock →
      (bank.server.mutex (transition.record part)).writerLock = false) →
    ∀ part, transition.changed.get part = true →
      transition.balance.get part = bank.server.balance (transition.record part)

/-- A grant was there before, or GET_LOCK has just given it. -/
theorem BankStep.grant_cases {bank next : Bank Tx} {action : BankAction Tx}
    (hstep : BankStep bank action next) {tx : Tx} {transition : Transition}
    (hgrant : (next.phase tx).grant = some transition) :
    ((bank.phase tx).grant = some transition ∧ action ≠ .finishHandler tx) ∨
      ∃ req, action = .getLockHandler tx ∧ bank.phase tx = .getLock transition req ∧
        ((SmallBank.getLockHandler req).run execute bank.server).1.respControl.success = true ∧
        next.server.balance = bank.server.balance := by
  by_cases heq : tx = action.tx
  · subst tx
    cases hstep with
    | sendFinish stale hphase hcallback =>
        simp only [BankAction.tx, Bank.move_phase_self] at hgrant
        refine .inl ⟨?_, by simp⟩
        simp only [BankAction.tx, hphase]
        exact hgrant
    | getLockHandler hphase =>
        simp only [BankAction.tx, Bank.move_phase_self] at hgrant
        split at hgrant
        next hsuccess =>
          obtain rfl := Option.some.inj hgrant
          exact .inr ⟨_, rfl, hphase, hsuccess, getLockHandler_run_balance _ _⟩
        next => cases hgrant
    | sendGetData hphase hnew =>
        simp only [BankAction.tx, Bank.move_phase_self] at hgrant
        cases hgrant
    | getDataHandler stale hphase | sendGetLock hphase hcallback | finishHandler hphase =>
        simp only [BankAction.tx, Bank.move_phase_self] at hgrant
        cases hgrant
  · rw [hstep.phase_of_ne heq] at hgrant
    refine .inl ⟨hgrant, ?_⟩
    rintro rfl
    exact heq rfl

/-- A transaction becomes finished only by its FINISH, and stays finished. -/
theorem BankStep.finished_iff {bank next : Bank Tx} {action : BankAction Tx}
    (hstep : BankStep bank action next) {tx : Tx} {transition : Transition} :
    next.phase tx = .finished transition ↔ bank.phase tx = .finished transition ∨
      ∃ req, action = .finishHandler tx ∧ bank.phase tx = .finish transition req := by
  by_cases heq : tx = action.tx
  · subst tx
    cases hstep with
    | finishHandler hphase => simp [BankAction.tx, hphase]
    | getLockHandler hphase =>
        simp only [BankAction.tx, Bank.move_phase_self, hphase]
        split <;> simp
    | sendGetData hphase hnew => simp [BankAction.tx, hphase]
    | getDataHandler stale hphase | sendGetLock hphase hcallback
    | sendFinish stale hphase hcallback => simp [BankAction.tx, hphase]
  · rw [hstep.phase_of_ne heq]
    refine ⟨.inl, ?_⟩
    rintro (hfinished | ⟨req, rfl, -⟩)
    · exact hfinished
    · exact (heq rfl).elim

/-- Every granted transaction still sees the balances it read on the records
that it will change. -/
def Bank.Current (bank : Bank Tx) : Prop :=
  ∀ tx transition, (bank.phase tx).grant = some transition →
    ∀ part, transition.changed.get part = true →
      transition.balance.get part = bank.server.balance (transition.record part)

theorem Phase.Ok.shape_of_grant {phase : Phase} (hok : phase.Ok) {transition : Transition}
    (hgrant : phase.grant = some transition) : transition.Shape := by
  cases phase with
  | granted _ _ =>
      obtain rfl := Option.some.inj hgrant
      exact hok
  | finish _ _ =>
      obtain rfl := Option.some.inj hgrant
      exact hok.1
  | _ => cases hgrant

theorem BankStep.current {bank next : Bank Tx} {action : BankAction Tx}
    (hstep : BankStep bank action next) (hreads : ReadsCurrent bank action)
    (hinv : bank.Accounted) (hcurrent : bank.Current) : next.Current := by
  intro tx transition hgrant part hpart
  rcases hstep.grant_cases hgrant with ⟨hbefore, hnot⟩ | ⟨req, haction, hphase, hsuccess, hsame⟩
  · -- Granted before this step: its write locks keep the others off its records.
    have hshape := (hinv.ok tx).shape_of_grant hbefore
    rw [hinv.balance_eq_of_writeGranted hstep ⟨transition, hbefore, hshape.write_mem_locks hpart⟩
      hnot]
    exact hcurrent tx transition hbefore part hpart
  · rw [hsame]
    apply hreads tx transition req haction hphase _ part hpart
    -- Success of the handler says that the writer flags were free.
    have hok := hinv.ok tx
    rw [hphase] at hok
    obtain ⟨hshape, rfl⟩ := hok
    refine (getLockHandler_run_success _ bank.server ?_).mp hsuccess
    intro first second hne hfirst hsecond
    exact hshape.record_ne hne hfirst hsecond

/-- The finished transactions in the order of their FINISH, and the balances
that they compute one after another. -/
structure Bank.FinishedInOrder (balance : RecordId → ℚ) (bank : Bank Tx)
    (order : List (Tx × Transition)) : Prop where
  nodup : (order.map Prod.fst).Nodup
  mem_iff : ∀ tx transition, (tx, transition) ∈ order ↔ bank.phase tx = .finished transition
  balance_eq : bank.server.balance =
    (order.map Prod.snd).foldl (fun balance transition => transition.apply balance) balance

/-- A FINISH appends its transaction to the order; no other step changes it. -/
theorem BankStep.finishedInOrder {balance : RecordId → ℚ} {bank next : Bank Tx}
    {action : BankAction Tx} (hstep : BankStep bank action next) (hinv : bank.Accounted)
    (hcurrent : bank.Current) {order : List (Tx × Transition)}
    (horder : bank.FinishedInOrder balance order) :
    ∃ order', next.FinishedInOrder balance order' := by
  rcases hstep.balance_cases with ⟨hsame, hnot⟩ | ⟨tx, transition, req, rfl, hphase, hstore⟩
  · refine ⟨order, horder.nodup, ?_, hsame.trans horder.balance_eq⟩
    intro tx transition
    rw [horder.mem_iff, hstep.finished_iff]
    simp [hnot tx]
  · have hok := hinv.ok tx
    rw [hphase] at hok
    obtain ⟨hshape, stale, rfl⟩ := hok
    have hgrant : (bank.phase tx).grant = some transition := by
      rw [hphase]
      rfl
    refine ⟨order ++ [(tx, transition)], ?_, ?_, ?_⟩
    · have hnew : tx ∉ order.map Prod.fst := by
        intro hmem
        obtain ⟨⟨_, earlier⟩, hearlier, rfl⟩ := List.mem_map.mp hmem
        rw [horder.mem_iff, hphase] at hearlier
        cases hearlier
      rw [List.map_append, List.nodup_append]
      refine ⟨horder.nodup, List.nodup_singleton tx, ?_⟩
      rintro earlier hmem other hother rfl
      rw [List.mem_singleton.mp hother] at hmem
      exact hnew hmem
    · intro other earlier
      rw [List.mem_append, horder.mem_iff, hstep.finished_iff, List.mem_singleton, Prod.mk.injEq]
      refine or_congr_right ⟨?_, ?_⟩
      · rintro ⟨rfl, rfl⟩
        exact ⟨_, rfl, hphase⟩
      · rintro ⟨_, haction, hfinish⟩
        obtain rfl := BankAction.finishHandler.inj haction
        rw [hphase] at hfinish
        exact ⟨rfl, (Phase.finish.inj hfinish).1.symm⟩
    · -- What it stores is what it would compute alone from the tables of now.
      rw [hstore, hshape.store_eq_apply stale (hcurrent tx transition hgrant),
        horder.balance_eq, List.map_append, List.foldl_append]
      rfl

/-- In every run whose granted transactions still see the balances they read,
the tables are always those of the finished transactions run one after another. -/
theorem serializable_of_readsCurrent {balance : RecordId → ℚ} {bank : Bank Tx}
    (hreach : ((bankSystem balance).restrict ReadsCurrent).Reachable bank) :
    bank.Serializable balance := by
  have hserial : bank.Current ∧ ∃ order, bank.FinishedInOrder balance order := by
    apply hreach.invariant
    · rintro ⟨server, phase⟩ ⟨hserver, hidle⟩
      dsimp only at hserver hidle
      subst server
      constructor
      · intro tx transition hgrant
        simp [hidle, Phase.grant] at hgrant
      · exact ⟨[], List.nodup_nil, by simp [hidle], rfl⟩
    · rintro state action next hprior ⟨hcurrent, order, horder⟩ ⟨hreads, hstep⟩
      have hinv := bankSystem_accounted hprior.of_restrict
      exact ⟨BankStep.current hstep hreads hinv hcurrent,
        BankStep.finishedInOrder hstep hinv hcurrent horder⟩
  obtain ⟨-, order, horder⟩ := hserial
  refine ⟨order, horder.nodup, horder.mem_iff, ?_⟩
  rw [horder.balance_eq, runSerially_balance _ Matches.initial]
  intro transition hmem
  obtain ⟨⟨tx, _⟩, hfinished, rfl⟩ := List.mem_map.mp hmem
  have hok := (bankSystem_accounted hreach.of_restrict).ok tx
  rw [(horder.mem_iff _ _).mp hfinished] at hok
  exact hok

/-- The first deposit after it has read an empty account. -/
def depositRead : Transition := depositFirst.reading fun _ => 0

theorem depositRead_shape : depositRead.Shape :=
  (Transition.new_shape depositFirst_new).withBalance _

theorem depositRead_apply (balance : RecordId → ℚ) :
    depositRead.apply balance ⟨.checking, 0⟩ = balance ⟨.checking, 0⟩ + 1 / 1000 := by
  simp [Transition.apply, storeBalances, handlerFinish, finishBalance, Transition.reading,
    loadBalances, handlerGetData, depositRead, depositFirst, PerPart.get, Users.record]

/-- What the deposit stores does not depend on the tables it meets. -/
theorem depositRead_store (balance : RecordId → ℚ) :
    storeBalances (handlerFinish depositRead.reqId depositRead (.fill 0)).reqControl balance
      ⟨.checking, 0⟩ = 1 / 1000 := by
  simp [storeBalances, handlerFinish, finishBalance, Transition.reading, loadBalances,
    handlerGetData, depositRead, depositFirst, PerPart.get, Users.record]

/-- With all locks free, a transaction that has read its balances is granted
its locks and finishes; all locks are free again. -/
theorem settle_path (balance : RecordId → ℚ) {allowed : Bank Tx → BankAction Tx → Prop}
    (hallowed : ∀ bank action, (∀ tx, action ≠ .getLockHandler tx) → allowed bank action)
    {bank : Bank Tx} {tx : Tx} {transition transition' : Transition}
    {resp : RpcMsgResp GetDataResp} (hshape : transition'.Shape)
    (hfree : Matches bank.server.mutex 0) (hphase : bank.phase tx = .gotData transition resp)
    (hcallback : callbackGetData transition.reqId resp transition = some transition')
    (hlock : allowed (bank.move bank.server tx (.getLock transition'
      (handlerGetLock transition'.reqId transition'))) (.getLockHandler tx)) :
    ∃ server, Matches server.mutex 0 ∧
      server.balance = storeBalances (handlerFinish transition'.reqId transition'
        (.fill 0)).reqControl bank.server.balance ∧
      ((bankSystem balance).restrict allowed).Path bank
        (bank.move server tx (.finished transition')) := by
  have hsuccess := hshape.granted_of_free hfree
  have hgranted := getLockHandler_run_matches (handlerGetLock transition'.reqId transition') hfree
  rw [if_pos hsuccess] at hgranted
  have hcallback' := callbackGetLock_run transition' bank.server
  rw [hsuccess] at hcallback'
  have hgrant := grant_path balance hallowed hphase hcallback hlock hsuccess
  have hfinish := finish_path balance hallowed (bank.move_phase_self ((getLockHandler
    (handlerGetLock transition'.reqId transition')).run execute bank.server).2 tx _) hcallback'
  rw [Bank.move_move, Bank.move_server] at hfinish
  refine ⟨_, ?_, ?_, hgrant.trans hfinish⟩
  · exact finishHandler_run_matches _ hgranted
  · rw [finishHandler_run_balance, getLockHandler_run_balance]

/-- Two clients deposit to the same account; both GET_DATA come first. -/
theorem deposits_reachable :
    ∃ bank : Bank Bool, (bankSystem fun _ => 0).Reachable bank ∧
      (∀ tx, bank.phase tx = .finished depositRead) ∧
      bank.server.balance ⟨.checking, 0⟩ = 1 / 1000 := by
  let start : Bank Bool := ⟨⟨fun _ => 0, fun _ => {}⟩, fun _ => .idle⟩
  let fetched := start.move start.server false (.gotData depositFirst
    (depositFirst.fetched start.server))
  let both := fetched.move start.server true (.gotData depositFirst
    (depositFirst.fetched start.server))
  have hstart : ((bankSystem fun _ => 0).restrict fun _ _ => True).Reachable start :=
    .start ⟨rfl, fun _ => rfl⟩
  have hidle : start.phase false = .idle := rfl
  have hidle' : fetched.phase true = .idle := rfl
  have hfetched := hstart.path (fetch_path _ (fun _ _ _ => trivial) depositFirst_new hidle)
  have hboth : ((bankSystem fun _ => 0).restrict fun _ _ => True).Reachable both :=
    hfetched.path (fetch_path _ (fun _ _ _ => trivial) depositFirst_new hidle')
  obtain ⟨server, hfree, -, hfirst⟩ := settle_path (fun _ => 0) (fun _ _ _ => trivial)
    depositRead_shape Matches.initial
    (rfl : both.phase false = .gotData depositFirst (depositFirst.fetched start.server))
    (callbackGetData_fetched depositFirst start.server) trivial
  have hphase : (both.move server false (.finished depositRead)).phase true =
      .gotData depositFirst (depositFirst.fetched start.server) := rfl
  obtain ⟨server', -, hbalance, hsecond⟩ := settle_path (fun _ => 0) (fun _ _ _ => trivial)
    depositRead_shape hfree hphase (callbackGetData_fetched depositFirst start.server) trivial
  refine ⟨_, ((hboth.path hfirst).path hsecond).of_restrict, ?_, ?_⟩
  · intro tx
    cases tx <;> rfl
  · rw [Bank.move_server, hbalance]
    exact depositRead_store _

/-- The balance query of the first account after it has read an empty one. -/
def balanceRead : Transition := balanceFirst.reading fun _ => 0

/-- A deposit and a balance query of one account. Both GET_DATA come first; the query,
which changes nothing, is granted its locks after the deposit. -/
theorem depositAndBalance_reachable :
    ∃ bank : Bank Bool, ((bankSystem fun _ => 0).restrict ReadsCurrent).Reachable bank ∧
      bank.phase false = .finished depositRead ∧ bank.phase true = .finished balanceRead ∧
      bank.server.balance ⟨.checking, 0⟩ = 1 / 1000 := by
  let start : Bank Bool := ⟨⟨fun _ => 0, fun _ => {}⟩, fun _ => .idle⟩
  let fetched := start.move start.server false (.gotData depositFirst
    (depositFirst.fetched start.server))
  let both := fetched.move start.server true (.gotData balanceFirst
    (balanceFirst.fetched start.server))
  have hstart : ((bankSystem fun _ => 0).restrict ReadsCurrent).Reachable start :=
    .start ⟨rfl, fun _ => rfl⟩
  have hallowed : ∀ (bank : Bank Bool) action, (∀ tx, action ≠ .getLockHandler tx) →
      ReadsCurrent bank action := fun _ _ hnot tx _ _ haction => (hnot tx haction).elim
  have hidle : start.phase false = .idle := rfl
  have hidle' : fetched.phase true = .idle := rfl
  have hfetched := hstart.path (fetch_path _ hallowed depositFirst_new hidle)
  have hboth : ((bankSystem fun _ => 0).restrict ReadsCurrent).Reachable both :=
    hfetched.path (fetch_path _ hallowed balanceFirst_new hidle')
  obtain ⟨server, hfree, hbalance, hfirst⟩ := settle_path (fun _ => 0) hallowed depositRead_shape
    Matches.initial
    (rfl : both.phase false = .gotData depositFirst (depositFirst.fetched start.server))
    (callbackGetData_fetched depositFirst start.server) (by
      rintro _ transition req haction hphase - part -
      obtain rfl := BankAction.getLockHandler.inj haction
      rw [Bank.move_phase_self] at hphase
      obtain ⟨rfl, -⟩ := Phase.getLock.inj hphase
      cases part <;> rfl)
  have hphase : (both.move server false (.finished depositRead)).phase true =
      .gotData balanceFirst (balanceFirst.fetched start.server) := rfl
  obtain ⟨server', -, hbalance', hsecond⟩ := settle_path (fun _ => 0) hallowed
    ((Transition.new_shape balanceFirst_new).withBalance _) hfree hphase
    (callbackGetData_fetched balanceFirst start.server) (by
      rintro _ transition req haction hphase - part hpart
      obtain rfl := BankAction.getLockHandler.inj haction
      rw [Bank.move_phase_self] at hphase
      obtain ⟨rfl, -⟩ := Phase.getLock.inj hphase
      cases part <;> cases hpart)
  refine ⟨_, (hboth.path hfirst).path hsecond, rfl, rfl, ?_⟩
  rw [Bank.move_server, hbalance', storeBalances_of_unchanged, Bank.move_server, hbalance]
  · exact depositRead_store _
  · rintro (_ | _ | _ | _) hpart <;> cases hpart

theorem serializable_depositAndBalance :
    ∃ bank : Bank Bool, bank.phase false = .finished depositRead ∧
      bank.phase true = .finished balanceRead ∧
      bank.server.balance ⟨.checking, 0⟩ = 1 / 1000 ∧ bank.Serializable fun _ => 0 := by
  obtain ⟨bank, hreach, hdeposit, hquery, hbalance⟩ := depositAndBalance_reachable
  exact ⟨bank, hdeposit, hquery, hbalance, serializable_of_readsCurrent hreach⟩

/-- Two deposits to one account both read it, and then finish one after the
other: the first update is lost. -/
theorem deposit_lost :
    ∃ bank : Bank Bool, (bankSystem fun _ => 0).Reachable bank ∧ bank.Quiescent ∧
      ¬ bank.Serializable fun _ => 0 := by
  obtain ⟨bank, hreach, hphase, hbalance⟩ := deposits_reachable
  refine ⟨bank, hreach, fun tx => .inr (.inr ⟨_, hphase tx⟩), ?_⟩
  rintro ⟨order, hnodup, hmem, hserial⟩
  -- Both deposits are in the order, and nothing else.
  have hlength : (order.map Prod.snd).length = 2 := by
    have hall : (order.map Prod.fst).toFinset = Finset.univ := by
      ext tx
      simp only [List.mem_toFinset, Finset.mem_univ, iff_true]
      exact List.mem_map.mpr ⟨_, (hmem tx _).mpr (hphase tx), rfl⟩
    have hcard := List.toFinset_card_of_nodup hnodup
    rw [hall] at hcard
    simpa using hcard.symm
  have hall : ∀ transition ∈ order.map Prod.snd, transition = depositRead := by
    intro transition htransition
    obtain ⟨⟨tx, _⟩, hfinished, rfl⟩ := List.mem_map.mp htransition
    have hsame := (hmem _ _).mp hfinished
    rw [hphase tx] at hsame
    exact (Phase.finished.inj hsame).symm
  rw [List.eq_replicate_iff.mpr ⟨hlength, hall⟩, runSerially_balance
    (fun _ htransition => List.eq_of_mem_replicate htransition ▸ depositRead_shape)
    Matches.initial] at hserial
  have hrecord := congrFun hserial ⟨.checking, 0⟩
  simp only [List.replicate, List.foldl_cons, List.foldl_nil, depositRead_apply, hbalance]
    at hrecord
  norm_num at hrecord

end BenchBF3.SmallBank
