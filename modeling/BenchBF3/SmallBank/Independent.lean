import Mathlib.Algebra.Order.BigOperators.Group.Finset
import BenchBF3.Foundation.Footprint
import BenchBF3.SmallBank.Serial

/-! # Transactions over disjoint accounts

A planned run gives each of finitely many transactions its `Transition` from
the constructor and interleaves their messages freely. When no two of them name
one account, no GET_LOCK meets a lock, every transaction still sees the
balances it has read, and what the transactions store commutes: the tables at
the end depend on the plan alone.
-/

namespace BenchBF3.SmallBank

open Foundation Foundation.Program

/-! ## Accounts and records -/

/-- The accounts that a transaction names. -/
def Transition.accounts (transition : Transition) : Finset Nat :=
  {transition.user1Id, transition.user2Id}

/-- The transaction is one that the constructor produces. -/
def Transition.FromNew (transition : Transition) : Prop :=
  ∃ reqId transmitType user1 draws,
    Transition.new reqId transmitType user1 draws = some transition

theorem Transition.FromNew.shape {transition : Transition} (hnew : transition.FromNew) :
    transition.Shape := by
  obtain ⟨_, _, _, _, hnew⟩ := hnew
  exact Transition.new_shape hnew

/-- Records of different accounts are different. -/
theorem Transition.record_ne_of_disjoint {transition other : Transition}
    (hdisjoint : Disjoint transition.accounts other.accounts) (part part' : Part) :
    transition.record part ≠ other.record part' := by
  simp only [accounts, Finset.disjoint_insert_left, Finset.disjoint_singleton_left,
    Finset.mem_insert, Finset.mem_singleton, not_or] at hdisjoint
  obtain ⟨⟨h₁, h₂⟩, h₃, h₄⟩ := hdisjoint
  have hscale : ∀ {left right : Nat}, left ≠ right → left * numScale ≠ right * numScale :=
    fun hne heq => hne (Nat.eq_of_mul_eq_mul_right (by decide) heq)
  cases part <;> cases part' <;>
    simp [Users.record, hscale h₁, hscale h₂, hscale h₃, hscale h₄]

theorem Users.record_of_mem_held {users : Users} {lock : PerPart LockType} {record : RecordId}
    {access : Access} (hmem : (record, access) ∈ users.held lock) :
    ∃ part, record = users.record part := by
  have hone : ∀ {lock : LockType} {other : RecordId},
      (record, access) ∈ lock.held other → record = other := by
    intro lock other hmem
    cases lock <;> simp_all [LockType.held]
  simp only [Users.held, Multiset.mem_add] at hmem
  rcases hmem with ((h₁ | h₂) | h₃) | h₄
  · exact ⟨_, hone h₁⟩
  · exact ⟨_, hone h₂⟩
  · exact ⟨_, hone h₃⟩
  · exact ⟨_, hone h₄⟩

theorem loadBalances_congr (req : GetDataReq) (stale : PerPart ℚ)
    {balance balance' : RecordId → ℚ}
    (hagree : ∀ part, balance (req.record part) = balance' (req.record part)) :
    loadBalances req stale balance = loadBalances req stale balance' := by
  simp only [loadBalances, hagree]

/-- Nothing held means that every mutex is as it was at the start. -/
theorem Matches.eq_free {mutexes : Mutexes} (hmatches : Matches mutexes 0) :
    mutexes = fun _ => {} := by
  funext record
  have hreaders := hmatches.readers record
  have hwriter := hmatches.writerLock record
  cases hmutex : mutexes record with
  | mk readersCount writerLock => simp_all

/-- A transaction alone reads and writes only its own records. -/
theorem Transition.apply_localOn (transition : Transition) :
    LocalOn (Set.range transition.record) transition.apply where
  frame balance record hrecord := by
    apply storeBalances_of_unchanged
    rintro part - rfl
    exact hrecord ⟨part, rfl⟩
  depends balance balance' hagree record hrecord := by
    have hload := loadBalances_congr (handlerGetData transition.reqId transition).reqControl
      (.fill 0) fun part => hagree _ ⟨part, rfl⟩
    simp only [apply, reading, hload]
    exact storeBalances_eq_of_eq _ (hagree record hrecord)

/-! ## Planned runs -/

variable {Tx : Type} [DecidableEq Tx]

/-- The runs in which every transaction is the one planned for it. -/
def plannedSystem (balance : RecordId → ℚ) (plan : Tx → Transition) :
    System (Bank Tx) (BankAction Tx) where
  start := (bankSystem balance).start
  step bank action next := BankStep bank action next ∧
    ∀ tx, action = .sendGetData tx →
      next.phase tx = .getData (plan tx) (handlerGetData (plan tx).reqId (plan tx))

def Bank.AllFinished (bank : Bank Tx) : Prop :=
  ∀ tx, ∃ transition, bank.phase tx = .finished transition

/-- The balances that the transaction has read are those of the records that it
will change. -/
def Transition.Sees (transition : Transition) (read : PerPart ℚ) (balance : RecordId → ℚ) :
    Prop :=
  ∀ part, transition.changed.get part = true →
    read.get part = balance (transition.record part)

/-- A transaction follows its plan: it is the planned one up to the balances it
has read, it was not refused, and until its FINISH those balances are current. -/
def Phase.Follows (plan : Transition) (balance : RecordId → ℚ) : Phase → Prop
  | idle => True
  | getData transition _ => transition = plan
  | gotData transition resp => transition = plan ∧
      respHeaderOk resp.respCommon plan.reqId .getData = true ∧
      plan.Sees resp.respControl.balance balance
  | getLock transition _ | finish transition _ =>
      ∃ read, transition = { plan with balance := read } ∧ plan.Sees read balance
  | refused _ => False
  | granted transition resp => callbackGetLock plan.reqId resp = some true ∧
      ∃ read, transition = { plan with balance := read } ∧ plan.Sees read balance
  | finished transition => ∃ read, transition = { plan with balance := read }

/-- Only the balances of the transaction's own records matter. -/
theorem Phase.Follows.congr {plan : Transition} {balance balance' : RecordId → ℚ}
    {phase : Phase} (hfollows : phase.Follows plan balance)
    (hagree : ∀ part, balance (plan.record part) = balance' (plan.record part)) :
    phase.Follows plan balance' := by
  have hsees : ∀ read, plan.Sees read balance → plan.Sees read balance' :=
    fun read hsees part hpart => (hsees part hpart).trans (hagree part)
  cases phase with
  | idle | getData _ _ | finished _ => exact hfollows
  | gotData _ _ => exact ⟨hfollows.1, hfollows.2.1, hsees _ hfollows.2.2⟩
  | getLock _ _ | finish _ _ =>
      obtain ⟨read, heq, hread⟩ := hfollows
      exact ⟨read, heq, hsees _ hread⟩
  | granted _ _ =>
      obtain ⟨hcallback, read, heq, hread⟩ := hfollows
      exact ⟨hcallback, read, heq, hsees _ hread⟩
  | refused _ => exact hfollows

theorem Phase.Follows.grant {plan transition : Transition} {balance : RecordId → ℚ}
    {phase : Phase} (hfollows : phase.Follows plan balance)
    (hgrant : phase.grant = some transition) :
    ∃ read, transition = { plan with balance := read } ∧ plan.Sees read balance := by
  cases phase with
  | granted _ _ =>
      obtain rfl := Option.some.inj hgrant
      exact hfollows.2
  | finish _ _ =>
      obtain rfl := Option.some.inj hgrant
      exact hfollows
  | _ => cases hgrant

section Steps

variable {plan : Tx → Transition} {bank next : Bank Tx} {action : BankAction Tx}
  (hdisjoint : Pairwise fun tx other => Disjoint (plan tx).accounts (plan other).accounts)
  (hinv : bank.Accounted)
  (hfollows : ∀ tx, (bank.phase tx).Follows (plan tx) bank.server.balance)

include hdisjoint hinv hfollows

/-- A FINISH touches the records of its own accounts only. -/
theorem BankStep.record_eq (hstep : BankStep bank action next) {tx : Tx}
    (hne : tx ≠ action.tx) (part : Part) :
    next.server.balance ((plan tx).record part) = bank.server.balance ((plan tx).record part) := by
  -- Only the holder of a write grant changes a balance.
  by_contra hchanged
  obtain ⟨other, rfl, transition, hgrant, hmem⟩ := hinv.writeGranted_of_changed hstep hchanged
  obtain ⟨read, rfl, -⟩ := (hfollows other).grant hgrant
  obtain ⟨part', hrecord⟩ := Users.record_of_mem_held hmem
  exact Transition.record_ne_of_disjoint (hdisjoint hne) part part' hrecord

omit [DecidableEq Tx] in
/-- No other transaction holds a lock on the records that GET_LOCK asks for. -/
theorem getLock_succeeds {tx : Tx} {transition : Transition} {req : RpcMsgReq GetLockReq}
    (hphase : bank.phase tx = .getLock transition req) :
    ((getLockHandler req).run execute bank.server).1.respControl.success = true := by
  have hok := hinv.ok tx
  have hplan := hfollows tx
  rw [hphase] at hok hplan
  obtain ⟨hshape, rfl⟩ := hok
  obtain ⟨read, rfl, -⟩ := hplan
  rw [getLockHandler_run_success _ _ fun part other => hshape.record_ne]
  intro part _
  -- A set writer flag is the lock of a granted transaction, which has other accounts.
  by_contra hwriter
  obtain ⟨active, -, hmatches⟩ := hinv.locks
  rw [Bool.not_eq_false, hmatches.writerLock] at hwriter
  have hmem := Multiset.one_le_count_iff_mem.mp hwriter.ge
  obtain ⟨other, -, hother⟩ := Multiset.mem_sum.mp hmem
  unfold Phase.locks at hother
  cases hgrant : (bank.phase other).grant with
  | none => simp [hgrant] at hother
  | some transition =>
      rw [hgrant] at hother
      obtain ⟨read', rfl, -⟩ := (hfollows other).grant hgrant
      obtain ⟨part', hrecord⟩ := Users.record_of_mem_held hother
      refine Transition.record_ne_of_disjoint (hdisjoint (i := tx) (j := other) ?_) part part'
        hrecord
      rintro rfl
      rw [hphase] at hgrant
      cases hgrant

theorem BankStep.follows (hstep : BankStep bank action next)
    (hplanned : ∀ tx, action = .sendGetData tx →
      next.phase tx = .getData (plan tx) (handlerGetData (plan tx).reqId (plan tx))) (tx : Tx) :
    (next.phase tx).Follows (plan tx) next.server.balance := by
  by_cases heq : tx = action.tx
  · subst tx
    have hbefore := hfollows action.tx
    have hok := hinv.ok action.tx
    cases hstep with
    | @sendGetData tx _ _ _ _ transition hphase hnew =>
        have hphase' := hplanned tx rfl
        simp only [BankAction.tx]
        rw [hphase']
        exact rfl
    | @getDataHandler tx transition req stale hphase =>
        simp only [BankAction.tx, hphase, Bank.move_phase_self, Bank.move_server,
          getDataHandler_run] at hbefore hok ⊢
        obtain ⟨hshape, rfl⟩ := hok
        subst hbefore
        refine ⟨rfl, by simp [respHeaderOk, handlerGetData], ?_⟩
        exact fun part hpart => hshape.loadBalances_get hpart
    | sendGetLock hphase hcallback =>
        simp only [BankAction.tx, hphase, Bank.move_phase_self, Bank.move_server] at hbefore ⊢
        obtain ⟨rfl, hheader, hsees⟩ := hbefore
        rw [callbackGetData, if_pos hheader] at hcallback
        exact ⟨_, (Option.some.inj hcallback).symm, hsees⟩
    | @getLockHandler tx transition req hphase =>
        have hsuccess := getLock_succeeds hdisjoint hinv hfollows hphase
        simp only [BankAction.tx, hphase, Bank.move_phase_self, Bank.move_server, hsuccess,
          if_true, getLockHandler_run_balance] at hbefore hok ⊢
        obtain ⟨-, rfl⟩ := hok
        obtain ⟨read, rfl, hsees⟩ := hbefore
        refine ⟨?_, read, rfl, hsees⟩
        have hcallback := callbackGetLock_run { plan tx with balance := read } bank.server
        rwa [hsuccess] at hcallback
    | sendFinish stale hphase hcallback =>
        simp only [BankAction.tx, hphase, Bank.move_phase_self, Bank.move_server] at hbefore ⊢
        exact hbefore.2
    | finishHandler hphase =>
        simp only [BankAction.tx, hphase, Bank.move_phase_self] at hbefore ⊢
        obtain ⟨read, heq, -⟩ := hbefore
        exact ⟨read, heq⟩
  · rw [hstep.phase_of_ne heq]
    exact (hfollows tx).congr fun part =>
      (hstep.record_eq hdisjoint hinv hfollows heq part).symm

end Steps

section Runs

variable {balance : RecordId → ℚ} {plan : Tx → Transition} {bank : Bank Tx}

theorem plannedSystem_bank (hreach : (plannedSystem balance plan).Reachable bank) :
    (bankSystem balance).Reachable bank := by
  induction hreach with
  | start hstart => exact .start hstart
  | step _ hstep ih => exact ih.step hstep.1

/-- In a planned run over disjoint accounts every transaction follows its plan,
and the tables are those of the finished ones in the order of their FINISH. -/
theorem plannedSystem_follows
    (hdisjoint : Pairwise fun tx other => Disjoint (plan tx).accounts (plan other).accounts)
    (hreach : (plannedSystem balance plan).Reachable bank) :
    (∀ tx, (bank.phase tx).Follows (plan tx) bank.server.balance) ∧
      ∃ order, bank.FinishedInOrder balance order := by
  apply hreach.invariant
  · rintro ⟨server, phase⟩ ⟨hserver, hidle⟩
    dsimp only at hserver hidle
    subst server
    refine ⟨?_, [], List.nodup_nil, by simp [hidle], rfl⟩
    intro tx
    dsimp only
    rw [hidle]
    trivial
  · rintro state action next hprior ⟨hfollows, order, horder⟩ ⟨hstep, hplanned⟩
    have hinv := bankSystem_accounted (plannedSystem_bank hprior)
    have hcurrent : state.Current := by
      intro tx transition hgrant
      obtain ⟨read, rfl, hsees⟩ := (hfollows tx).grant hgrant
      exact hsees
    exact ⟨hstep.follows hdisjoint hinv hfollows hplanned,
      hstep.finishedInOrder hinv hcurrent horder⟩

/-- The message events that a transaction has before it. -/
def Phase.left : Phase → Nat
  | idle => 6
  | getData _ _ => 5
  | gotData _ _ => 4
  | getLock _ _ => 3
  | granted _ _ => 2
  | finish _ _ => 1
  | refused _ | finished _ => 0

theorem BankStep.left_lt {next : Bank Tx} {action : BankAction Tx}
    (hstep : BankStep bank action next) :
    (next.phase action.tx).left < (bank.phase action.tx).left := by
  cases hstep with
  | sendGetData hphase _ | getDataHandler _ hphase | sendGetLock hphase _
  | sendFinish _ hphase _ | finishHandler hphase =>
      simp [BankAction.tx, hphase, Phase.left]
  | getLockHandler hphase =>
      simp only [BankAction.tx, Bank.move_phase_self, hphase]
      split <;> simp [Phase.left]

/-- A transaction that follows its plan is finished or can go on. -/
theorem exists_step_of_follows (hnew : ∀ tx, (plan tx).FromNew) {tx : Tx}
    (hfollows : (bank.phase tx).Follows (plan tx) bank.server.balance)
    (hnot : ∀ transition, bank.phase tx ≠ .finished transition) :
    ∃ action next, (plannedSystem balance plan).step bank action next := by
  cases hphase : bank.phase tx with
  | idle =>
      obtain ⟨reqId, transmitType, user1, draws, hnew⟩ := hnew tx
      refine ⟨_, _, .sendGetData hphase hnew, ?_⟩
      intro other heq
      obtain rfl := BankAction.sendGetData.inj heq
      exact bank.move_phase_self _ _ _
  | getData transition req => exact ⟨_, _, .getDataHandler ⟨.fill 0⟩ hphase, nofun⟩
  | gotData transition resp =>
      rw [hphase] at hfollows
      obtain ⟨rfl, hheader, -⟩ := hfollows
      exact ⟨_, _, .sendGetLock hphase (if_pos hheader), nofun⟩
  | getLock transition req => exact ⟨_, _, .getLockHandler hphase, nofun⟩
  | refused transition =>
      rw [hphase] at hfollows
      exact hfollows.elim
  | granted transition resp =>
      rw [hphase] at hfollows
      obtain ⟨hcallback, read, rfl, -⟩ := hfollows
      exact ⟨_, _, .sendFinish (.fill 0) hphase hcallback, nofun⟩
  | finish transition req => exact ⟨_, _, .finishHandler hphase, nofun⟩
  | finished transition => exact (hnot transition hphase).elim

/-- Every planned run over disjoint accounts can be completed. -/
theorem exists_allFinished [Fintype Tx] (hnew : ∀ tx, (plan tx).FromNew)
    (hdisjoint : Pairwise fun tx other => Disjoint (plan tx).accounts (plan other).accounts)
    (hreach : (plannedSystem balance plan).Reachable bank) :
    ∃ last, (plannedSystem balance plan).Path bank last ∧ last.AllFinished := by
  -- Each step takes one message event off the events that are left.
  induction hleft : ∑ tx, (bank.phase tx).left using Nat.strong_induction_on generalizing bank with
  | _ left ih =>
      by_cases hall : bank.AllFinished
      · exact ⟨bank, .refl bank, hall⟩
      · unfold Bank.AllFinished at hall
        push Not at hall
        obtain ⟨tx, hnot⟩ := hall
        obtain ⟨action, next, hstep⟩ := exists_step_of_follows hnew
          ((plannedSystem_follows hdisjoint hreach).1 tx) hnot
        have hless : ∑ tx, (next.phase tx).left < left := by
          rw [← hleft]
          refine Finset.sum_lt_sum ?_ ⟨action.tx, Finset.mem_univ _, hstep.1.left_lt⟩
          intro other _
          by_cases heq : other = action.tx
          · rw [heq]
            exact hstep.1.left_lt.le
          · rw [hstep.1.phase_of_ne heq]
        obtain ⟨last, hpath, hlast⟩ := ih _ hless (hreach.step hstep) rfl
        exact ⟨last, (System.Path.single hstep).trans hpath, hlast⟩

/-- All transactions finished: the tables are those of the planned transactions
alone, one after another in any order, and all locks are free. -/
theorem server_eq_of_allFinished (hnew : ∀ tx, (plan tx).FromNew)
    (hdisjoint : Pairwise fun tx other => Disjoint (plan tx).accounts (plan other).accounts)
    (hreach : (plannedSystem balance plan).Reachable bank) (hall : bank.AllFinished)
    {order : List Tx} (hnodup : order.Nodup) (hcomplete : ∀ tx, tx ∈ order) :
    bank.server.balance = (runSerially (order.map plan) ⟨balance, fun _ => {}⟩).balance ∧
      bank.server.mutex = fun _ => {} := by
  obtain ⟨hfollows, finished, horder⟩ := plannedSystem_follows hdisjoint hreach
  constructor
  · have happly : ∀ entry ∈ finished, entry.2.apply = (plan entry.1).apply := by
      rintro ⟨tx, transition⟩ hmem
      have hplan := hfollows tx
      rw [(horder.mem_iff _ _).mp hmem] at hplan
      obtain ⟨read, rfl⟩ := hplan
      rfl
    have hperm : (finished.map Prod.fst).Perm order := by
      rw [List.perm_ext_iff_of_nodup horder.nodup hnodup]
      intro tx
      obtain ⟨transition, hfinished⟩ := hall tx
      exact iff_of_true (List.mem_map.mpr ⟨_, (horder.mem_iff _ _).mpr hfinished, rfl⟩)
        (hcomplete tx)
    have hfootprint : Pairwise fun tx other =>
        Disjoint (Set.range (plan tx).record) (Set.range (plan other).record) := by
      intro tx other hne
      rw [Set.disjoint_range_iff]
      exact Transition.record_ne_of_disjoint (hdisjoint hne)
    -- Both sides are folds of the same updates, in two orders.
    rw [runSerially_balance (by simpa using fun tx _ => (hnew tx).shape) Matches.initial,
      horder.balance_eq, List.foldl_map, List.foldl_map,
      ← LocalOn.foldl_perm (fun tx => (plan tx).apply_localOn) hfootprint hperm, List.foldl_map]
    apply List.foldl_ext
    intro store entry hmem
    rw [happly entry hmem]
  · obtain ⟨active, -, hmatches⟩ := (bankSystem_accounted (plannedSystem_bank hreach)).locks
    have hnone : ∑ tx ∈ active, (bank.phase tx).locks = 0 := by
      apply Finset.sum_eq_zero
      intro tx _
      obtain ⟨transition, hfinished⟩ := hall tx
      rw [hfinished]
      rfl
    rw [hnone] at hmatches
    exact hmatches.eq_free

end Runs

/-- Finitely many transactions of the constructor over pairwise disjoint
accounts, from any tables with all locks free. In every run every GET_LOCK
succeeds and the run can be completed; any two completed runs have the same
tables, those of the transactions alone in any order, and leave all locks free. -/
theorem independent_commute [Fintype Tx] {plan : Tx → Transition}
    (hnew : ∀ tx, (plan tx).FromNew)
    (hdisjoint : Pairwise fun tx other => Disjoint (plan tx).accounts (plan other).accounts)
    (balance : RecordId → ℚ) :
    (∀ bank, (plannedSystem balance plan).Reachable bank →
      (∀ tx transition req, bank.phase tx = .getLock transition req →
        ((getLockHandler req).run execute bank.server).1.respControl.success = true) ∧
      ∃ last, (plannedSystem balance plan).Path bank last ∧ last.AllFinished) ∧
    ∀ bank other, (plannedSystem balance plan).Reachable bank → bank.AllFinished →
      (plannedSystem balance plan).Reachable other → other.AllFinished →
      bank.server.balance = other.server.balance ∧
      (bank.server.mutex = fun _ => {}) ∧ (other.server.mutex = fun _ => {}) ∧
      ∀ order : List Tx, order.Nodup → (∀ tx, tx ∈ order) →
        bank.server.balance =
          (runSerially (order.map plan) ⟨balance, fun _ => {}⟩).balance := by
  refine ⟨?_, ?_⟩
  · intro bank hreach
    refine ⟨?_, exists_allFinished hnew hdisjoint hreach⟩
    intro tx transition req hphase
    exact getLock_succeeds hdisjoint (bankSystem_accounted (plannedSystem_bank hreach))
      (plannedSystem_follows hdisjoint hreach).1 hphase
  · intro bank other hbank hall hother hall'
    have hserial := fun (order : List Tx) (hnodup : order.Nodup) (hcomplete : ∀ tx, tx ∈ order) =>
      server_eq_of_allFinished hnew hdisjoint hbank hall hnodup hcomplete
    have hserial' := server_eq_of_allFinished hnew hdisjoint hother hall'
      Finset.univ.nodup_toList (by simp)
    have hsome := hserial Finset.univ.toList Finset.univ.nodup_toList (by simp)
    exact ⟨hsome.1.trans hserial'.1.symm, hsome.2, hserial'.2,
      fun order hnodup hcomplete => (hserial order hnodup hcomplete).1⟩

/-- A payment from the second account to the third. -/
def paymentSecond : Transition where
  reqId := 3
  transmitType := .sendPayment
  user1Id := 1
  user2Id := 2
  lock := ⟨.writeLock, .noLock, .writeLock, .noLock⟩
  changed := ⟨true, false, true, false⟩

/-- The first draw of the second user is the first user again. -/
theorem paymentSecond_new : Transition.new 3 .sendPayment ⟨1, by decide⟩
    [⟨1, by decide⟩, ⟨2, by decide⟩] = some paymentSecond := rfl

/-- The deposit to the first account together with that payment. -/
def depositAndPayment : Bool → Transition
  | false => depositFirst
  | true => paymentSecond

/-- From empty tables, a deposit and a payment among other accounts. -/
theorem independent_commute_depositAndPayment :
    ∃ bank : Bank Bool, (plannedSystem (fun _ => 0) depositAndPayment).Reachable bank ∧
      bank.AllFinished ∧ (bank.server.mutex = fun _ => {}) ∧
      bank.server.balance =
        (runSerially [paymentSecond, depositFirst] ⟨fun _ => 0, fun _ => {}⟩).balance := by
  have hnew : ∀ tx, (depositAndPayment tx).FromNew := by
    intro tx
    cases tx with
    | false => exact ⟨_, _, _, _, depositFirst_new⟩
    | true => exact ⟨_, _, _, _, paymentSecond_new⟩
  have hdisjoint : Pairwise fun tx other =>
      Disjoint (depositAndPayment tx).accounts (depositAndPayment other).accounts := by
    intro tx other hne
    cases tx <;> cases other
    · exact (hne rfl).elim
    · decide
    · decide
    · exact (hne rfl).elim
  obtain ⟨hrun, hend⟩ := independent_commute hnew hdisjoint fun _ => 0
  have hstart : (plannedSystem (fun _ => 0) depositAndPayment).Reachable
      ⟨⟨fun _ => 0, fun _ => {}⟩, fun _ => .idle⟩ := .start ⟨rfl, fun _ => rfl⟩
  obtain ⟨last, hpath, hall⟩ := (hrun _ hstart).2
  have hlast := hstart.path hpath
  obtain ⟨-, hfree, -, hserial⟩ := hend last last hlast hall hlast hall
  exact ⟨last, hlast, hall, hfree, hserial [true, false] (by decide) (by decide)⟩

end BenchBF3.SmallBank
