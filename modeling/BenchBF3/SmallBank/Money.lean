import Mathlib.Data.Finset.Image
import Mathlib.Data.Fintype.BigOperators
import Mathlib.Tactic.Linarith
import Mathlib.Tactic.Ring
import BenchBF3.Foundation.Totals
import BenchBF3.SmallBank.Independent

/-! # The money in the bank

A transaction reads balances, gets its locks, and writes back what it computed
from the balances it had read. Payments and amalgamations are meant to keep the sum
of all balances, deposits and checks to change it by the amount. What the code loses
or creates beyond that is exactly what other transactions changed between the
reading and the grant. Locks never get in the way for good: from every state the
transactions that hold some can finish.
-/

namespace BenchBF3.SmallBank

open Foundation Foundation.Program

/-! ## The sum of all balances -/

/-- The records at which the accounts are kept. -/
def allRecords : Finset RecordId :=
  (Finset.range numAccounts).image (fun user => ⟨.checking, user * numScale⟩) ∪
    (Finset.range numAccounts).image (fun user => ⟨.savings, user * numScale⟩)

def total (balance : RecordId → ℚ) : ℚ := ∑ record ∈ allRecords, balance record

theorem record_mem_allRecords {users : Users} (huser1 : users.user1Id < numAccounts)
    (huser2 : users.user2Id < numAccounts) (part : Part) : users.record part ∈ allRecords := by
  simp only [allRecords, Finset.mem_union, Finset.mem_image, Finset.mem_range]
  cases part with
  | user1Checking => exact .inl ⟨_, huser1, rfl⟩
  | user1Saving => exact .inr ⟨_, huser1, rfl⟩
  | user2Checking => exact .inl ⟨_, huser2, rfl⟩
  | user2Saving => exact .inr ⟨_, huser2, rfl⟩

/-- A transaction of the constructor, with any balances. -/
def Transition.Constructed (transition : Transition) : Prop :=
  ∃ made : Transition, made.FromNew ∧ transition = { made with balance := transition.balance }

/-- The records in the order in which the server stores them. -/
def Part.all : List Part := [.user1Checking, .user1Saving, .user2Checking, .user2Saving]

namespace Transition

variable {transition : Transition}

/-- The change of the sum that the transaction is meant to make. -/
def effect (transition : Transition) : ℚ :=
  match transition.transmitType with
  | .depositChecking => transition.amount
  | .transactSavings | .writeCheck => -transition.amount
  | .amalgamate | .balance | .sendPayment => 0

/-- By how much the balances it read exceed those it is about to overwrite. -/
def staleness (transition : Transition) (balance : RecordId → ℚ) : ℚ :=
  (Part.all.map fun part => if transition.changed.get part = true then
    transition.balance.get part - balance (transition.record part) else 0).sum

theorem staleness_eq_zero {balance : RecordId → ℚ}
    (hcurrent : ∀ part, transition.changed.get part = true →
      transition.balance.get part = balance (transition.record part)) :
    transition.staleness balance = 0 := by
  have hpart : ∀ part, (if transition.changed.get part = true then
      transition.balance.get part - balance (transition.record part) else 0) = 0 := by
    intro part
    split
    next hchanged => rw [hcurrent part hchanged, sub_self]
    next => rfl
  simp only [staleness, Part.all, hpart, List.map_cons, List.map_nil, List.sum_cons, List.sum_nil,
    add_zero]

theorem Constructed.shape (hconstructed : transition.Constructed) : transition.Shape := by
  obtain ⟨made, hnew, heq⟩ := hconstructed
  rw [heq]
  exact hnew.shape.withBalance _

theorem Constructed.withBalance (hconstructed : transition.Constructed) (balance : PerPart ℚ) :
    { transition with balance := balance }.Constructed := by
  obtain ⟨made, hnew, heq⟩ := hconstructed
  refine ⟨made, hnew, ?_⟩
  rw [heq]

theorem Constructed.users_lt (hconstructed : transition.Constructed) :
    transition.user1Id < numAccounts ∧ transition.user2Id < numAccounts := by
  obtain ⟨made, ⟨reqId, transmitType, user1, draws, hnew⟩, heq⟩ := hconstructed
  have hmade : made.user1Id < numAccounts ∧ made.user2Id < numAccounts := by
    cases transmitType with
    | amalgamate | sendPayment =>
        simp only [Transition.new, Option.bind_eq_bind, Option.bind_eq_some_iff,
          Option.some.injEq] at hnew
        obtain ⟨user2, -, rfl⟩ := hnew
        exact ⟨user1.isLt, user2.isLt⟩
    | balance | depositChecking | transactSavings | writeCheck =>
        obtain rfl := Option.some.inj hnew
        exact ⟨user1.isLt, user1.isLt⟩
  rw [heq]
  exact hmade

/-- What a transaction adds to the balances it read is its effect. -/
theorem Constructed.sum_finishBalance (hconstructed : transition.Constructed)
    (stale : PerPart ℚ) :
    (Part.all.map fun part => if transition.changed.get part = true then
      (finishBalance transition stale).get part - transition.balance.get part else 0).sum =
      transition.effect := by
  obtain ⟨made, ⟨reqId, transmitType, user1, draws, hnew⟩, heq⟩ := hconstructed
  rw [heq]
  cases transmitType with
  | amalgamate | sendPayment =>
      simp only [Transition.new, Option.bind_eq_bind, Option.bind_eq_some_iff,
        Option.some.injEq] at hnew
      obtain ⟨user2, -, rfl⟩ := hnew
      simp [Part.all, PerPart.get, finishBalance, effect]
  | balance | depositChecking | transactSavings | writeCheck =>
      obtain rfl := Option.some.inj hnew
      simp [Part.all, PerPart.get, PerPart.fill, finishBalance, effect]

end Transition

/-- FINISH changes the sum by the effect of the transaction and its staleness. -/
theorem total_storeBalances {transition : Transition} (hconstructed : transition.Constructed)
    (reqId : BitVec 32) (stale : PerPart ℚ) (balance : RecordId → ℚ) :
    total (storeBalances (handlerFinish reqId transition stale).reqControl balance) =
      total balance + transition.effect + transition.staleness balance := by
  obtain ⟨huser1, huser2⟩ := hconstructed.users_lt
  have hshape := hconstructed.shape
  have hdistinct : ∀ part other, part ≠ other → transition.changed.get part = true →
      transition.changed.get other = true → transition.record part ≠ transition.record other := by
    intro part other hne hpart hother
    refine hshape.record_ne hne ?_ ?_
    · rw [hshape.changed_writeLock part hpart]
      exact nofun
    · rw [hshape.changed_writeLock other hother]
      exact nofun
  have hpairwise : Part.all.Pairwise (· ≠ ·) := by decide
  have hsplit : ∀ part, (if transition.changed.get part = true then
      (finishBalance transition stale).get part - balance (transition.record part) else 0) =
      (if transition.changed.get part = true then
        (finishBalance transition stale).get part - transition.balance.get part else 0) +
      if transition.changed.get part = true then
        transition.balance.get part - balance (transition.record part) else 0 := by
    intro part
    split
    next => rw [sub_add_sub_cancel]
    next => rw [add_zero]
  calc total (storeBalances (handlerFinish reqId transition stale).reqControl balance)
      = total balance + (Part.all.map fun part => if transition.changed.get part = true then
          (finishBalance transition stale).get part - balance (transition.record part)
          else 0).sum :=
        sum_foldl_update transition.record _ _ balance
          (fun part _ _ => record_mem_allRecords huser1 huser2 part)
          (hpairwise.imp fun hne => hdistinct _ _ hne)
    _ = total balance + (transition.effect + transition.staleness balance) := by
        simp only [hsplit, List.sum_map_add, hconstructed.sum_finishBalance stale]
        rfl
    _ = total balance + transition.effect + transition.staleness balance := (add_assoc ..).symm

/-! ## The run of a transaction -/

namespace Phase

/-- The transaction is one of the constructor, and the answer to a successful
GET_LOCK lets it go on. -/
def Made : Phase → Prop
  | idle => True
  | getData transition _ | gotData transition _ | getLock transition _ | refused transition
  | finish transition _ | finished transition => transition.Constructed
  | granted transition resp => transition.Constructed ∧
      callbackGetLock transition.reqId resp = some true

/-- What a finished transaction was meant to add. -/
def effect : Phase → ℚ
  | finished transition => transition.effect
  | _ => 0

end Phase

section Step

variable {Tx : Type} [DecidableEq Tx] {bank next : Bank Tx} {action : BankAction Tx}

theorem BankStep.phase_made (hstep : BankStep bank action next)
    (hok : ∀ tx, (bank.phase tx).Ok) (hmade : ∀ tx, (bank.phase tx).Made) :
    ∀ tx, (next.phase tx).Made := by
  intro tx
  by_cases heq : tx = action.tx
  · subst tx
    have hbefore := hmade action.tx
    have hshape := hok action.tx
    cases hstep with
    | @sendGetData tx reqId transmitType user1 draws transition hphase hnew =>
        simp only [BankAction.tx, Bank.move, Function.update_self]
        exact ⟨transition, ⟨reqId, transmitType, user1, draws, hnew⟩, rfl⟩
    | getDataHandler stale hphase =>
        simp only [BankAction.tx, Bank.move, Function.update_self, hphase] at hbefore ⊢
        exact hbefore
    | sendGetLock hphase hcallback =>
        simp only [BankAction.tx, Bank.move, Function.update_self, hphase] at hbefore ⊢
        unfold callbackGetData at hcallback
        split at hcallback
        next =>
          rw [← Option.some.inj hcallback]
          exact hbefore.withBalance _
        next => cases hcallback
    | @getLockHandler tx transition req hphase =>
        simp only [BankAction.tx, Bank.move, Function.update_self, hphase] at hbefore hshape ⊢
        split
        next hsuccess =>
          obtain ⟨-, rfl⟩ := hshape
          exact ⟨hbefore, (callbackGetLock_run transition bank.server).trans
            (congrArg some hsuccess)⟩
        next => exact hbefore
    | sendFinish stale hphase hcallback =>
        simp only [BankAction.tx, Bank.move, Function.update_self, hphase] at hbefore ⊢
        exact hbefore.1
    | finishHandler hphase =>
        simp only [BankAction.tx, Bank.move, Function.update_self, hphase] at hbefore ⊢
        exact hbefore
  · rw [hstep.phase_of_ne heq]
    exact hmade tx

/-- What a step takes from or adds to the bank beside the effects of transactions:
the staleness of the one that finishes. -/
def Bank.drift (bank : Bank Tx) : BankAction Tx → ℚ
  | .finishHandler tx =>
      match bank.phase tx with
      | .finish transition _ => transition.staleness bank.server.balance
      | _ => 0
  | _ => 0

theorem BankStep.effect_eq (hstep : BankStep bank action next)
    (hnot : ∀ tx, action ≠ .finishHandler tx) :
    (bank.phase action.tx).effect = 0 ∧ (next.phase action.tx).effect = 0 := by
  cases hstep with
  | getLockHandler hphase =>
      simp only [BankAction.tx, Bank.move, Function.update_self, hphase]
      split <;> exact ⟨rfl, rfl⟩
  | finishHandler hphase => exact absurd rfl (hnot _)
  | sendGetData hphase _ | getDataHandler _ hphase | sendGetLock hphase _
  | sendFinish _ hphase _ =>
      simp only [BankAction.tx, Bank.move, Function.update_self, hphase]
      exact ⟨rfl, rfl⟩

/-- The sum of the balances changes with the effect of the acting transaction and
the drift of the step. -/
theorem BankStep.total_eq (hstep : BankStep bank action next)
    (hok : ∀ tx, (bank.phase tx).Ok) (hmade : ∀ tx, (bank.phase tx).Made) :
    total next.server.balance + (bank.phase action.tx).effect =
      total bank.server.balance + (next.phase action.tx).effect + bank.drift action := by
  rcases hstep.balance_cases with ⟨hsame, hnot⟩ | ⟨tx, transition, req, rfl, hphase, hstore⟩
  · obtain ⟨hbefore, hafter⟩ := hstep.effect_eq hnot
    have hdrift : bank.drift action = 0 := by
      cases action with
      | finishHandler tx => exact absurd rfl (hnot tx)
      | sendGetData | getDataHandler | sendGetLock | getLockHandler | sendFinish => rfl
    rw [hsame, hbefore, hafter, hdrift, add_zero, add_zero]
  · have hconstructed := hmade tx
    have hrequest := hok tx
    rw [hphase] at hconstructed hrequest
    obtain ⟨-, stale, rfl⟩ := hrequest
    have hafter : (next.phase tx).effect = transition.effect := by
      cases hstep with
      | finishHandler hphase' =>
          rw [hphase] at hphase'
          cases hphase'
          rw [Bank.move_phase_self]
          rfl
    have hbefore : (bank.phase tx).effect = 0 := by
      rw [hphase]
      rfl
    have hdrift : bank.drift (.finishHandler tx) = transition.staleness bank.server.balance := by
      simp only [Bank.drift, hphase]
    change total next.server.balance + (bank.phase tx).effect =
      total bank.server.balance + (next.phase tx).effect + _
    rw [hstore, total_storeBalances hconstructed, hbefore, hafter, hdrift, add_zero]

end Step

/-! ## Whole runs -/

section Runs

variable {Tx : Type} [DecidableEq Tx] {balance : RecordId → ℚ} {bank : Bank Tx}

theorem bankSystem_made (hreach : (bankSystem balance).Reachable bank) :
    ∀ tx, (bank.phase tx).Made := by
  apply hreach.invariant
  · rintro bank ⟨-, hidle⟩ tx
    rw [hidle tx]
    trivial
  · intro state action next hprior hinv hstep
    exact BankStep.phase_made hstep (bankSystem_accounted hprior).ok hinv

/-- The bank with a count of what its runs have drifted. -/
def moneySystem (balance : RecordId → ℚ) : System (Bank Tx × ℚ) (BankAction Tx) where
  start state := (bankSystem balance).start state.1 ∧ state.2 = 0
  step state action next :=
    (bankSystem balance).step state.1 action next.1 ∧ next.2 = state.2 + state.1.drift action

/-- The count does not restrict the runs of the bank. -/
theorem moneySystem_reachable (hreach : (bankSystem balance).Reachable bank) :
    ∃ drift, (moneySystem balance).Reachable (bank, drift) := by
  induction hreach with
  | start hstart => exact ⟨0, .start ⟨hstart, rfl⟩⟩
  | step _ hstep ih =>
      obtain ⟨drift, hmoney⟩ := ih
      exact ⟨_, hmoney.step ⟨hstep, rfl⟩⟩

theorem bankSystem_of_moneySystem {state : Bank Tx × ℚ}
    (hreach : (moneySystem balance).Reachable state) :
    (bankSystem balance).Reachable state.1 := by
  induction hreach with
  | start hstart => exact .start hstart.1
  | step _ hstep ih => exact ih.step hstep.1

/-- The sum of all balances is what it was at the start, with the effects of the
finished transactions and the drift. -/
def Bank.Balanced (balance : RecordId → ℚ) (bank : Bank Tx) (drift : ℚ) : Prop :=
  ∃ started : Finset Tx, (∀ tx, tx ∉ started → bank.phase tx = .idle) ∧
    total bank.server.balance = total balance + ∑ tx ∈ started, (bank.phase tx).effect + drift

/-- Splitting off the acting transaction, nothing changes for the others. -/
theorem BankStep.sum_effect {next : Bank Tx} {action : BankAction Tx}
    (hstep : BankStep bank action next) {started : Finset Tx}
    (hidle : ∀ tx, tx ∉ started → bank.phase tx = .idle) :
    ∑ tx ∈ insert action.tx started, (next.phase tx).effect + (bank.phase action.tx).effect =
      ∑ tx ∈ started, (bank.phase tx).effect + (next.phase action.tx).effect := by
  have hbefore : ∑ tx ∈ started, (bank.phase tx).effect =
      ∑ tx ∈ insert action.tx started, (bank.phase tx).effect := by
    refine Finset.sum_subset (Finset.subset_insert _ _) fun tx _ hnot => ?_
    rw [hidle tx hnot]
    rfl
  have hothers : ∑ tx ∈ (insert action.tx started).erase action.tx, (next.phase tx).effect =
      ∑ tx ∈ (insert action.tx started).erase action.tx, (bank.phase tx).effect := by
    refine Finset.sum_congr rfl fun tx htx => ?_
    rw [hstep.phase_of_ne (Finset.ne_of_mem_erase htx)]
  have hmem : action.tx ∈ insert action.tx started := Finset.mem_insert_self _ _
  rw [hbefore, ← Finset.add_sum_erase _ (fun tx => (next.phase tx).effect) hmem,
    ← Finset.add_sum_erase _ (fun tx => (bank.phase tx).effect) hmem, hothers]
  ring

theorem moneySystem_balanced {state : Bank Tx × ℚ}
    (hreach : (moneySystem balance).Reachable state) : state.1.Balanced balance state.2 := by
  refine @System.Reachable.invariant _ _ _
    (fun state : Bank Tx × ℚ => state.1.Balanced balance state.2) ?_ ?_ _ hreach
  · rintro ⟨bank, drift⟩ ⟨⟨hserver, hidle⟩, hdrift⟩
    dsimp only at hserver hidle hdrift
    refine ⟨∅, fun tx _ => hidle tx, ?_⟩
    simp only [hserver, hdrift, Finset.sum_empty, add_zero]
  · rintro ⟨bank, drift⟩ action ⟨next, drift'⟩ hprior ⟨started, hidle, htotal⟩ ⟨hstep, hdrift⟩
    dsimp only at hidle htotal hstep hdrift ⊢
    have hbank := bankSystem_of_moneySystem hprior
    have hchange := BankStep.total_eq hstep (bankSystem_accounted hbank).ok (bankSystem_made hbank)
    have hsum := BankStep.sum_effect hstep hidle
    refine ⟨insert action.tx started, ?_, by linarith⟩
    intro tx htx
    rw [Finset.mem_insert, not_or] at htx
    rw [BankStep.phase_of_ne hstep htx.1]
    exact hidle tx htx.2

/-- When every grant finds the balances as they were read, what is granted is current
until FINISH. -/
theorem current_of_readsCurrent
    (hreach : ((bankSystem balance).restrict ReadsCurrent).Reachable bank) : bank.Current := by
  refine System.Reachable.invariant ?_ ?_ hreach
  · rintro bank ⟨-, hidle⟩ tx transition hgrant
    rw [hidle tx] at hgrant
    cases hgrant
  · intro bank action next hprior hcurrent hstep
    exact BankStep.current hstep.2 hstep.1 (bankSystem_accounted hprior.of_restrict) hcurrent

omit [DecidableEq Tx] in
theorem drift_eq_zero_of_current {action : BankAction Tx} (hcurrent : bank.Current) :
    bank.drift action = 0 := by
  cases action with
  | finishHandler tx =>
      simp only [Bank.drift]
      split
      next transition req hphase =>
        refine Transition.staleness_eq_zero (hcurrent tx transition ?_)
        rw [hphase]
        rfl
      next => rfl
  | sendGetData | getDataHandler | sendGetLock | getLockHandler | sendFinish => rfl

end Runs

/-! ## Deposits -/

theorem total_zero : total (fun _ => 0) = 0 := Finset.sum_const_zero

/-- The effects of two transactions that have both started. -/
theorem sum_effect_both {bank : Bank Bool} (hstarted : ∀ tx, bank.phase tx ≠ .idle)
    {started : Finset Bool} (hidle : ∀ tx, tx ∉ started → bank.phase tx = .idle) :
    ∑ tx ∈ started, (bank.phase tx).effect =
      (bank.phase true).effect + (bank.phase false).effect := by
  have hall : started = Finset.univ := by
    ext tx
    refine iff_of_true ?_ (Finset.mem_univ tx)
    by_contra hnot
    exact hstarted tx (hidle tx hnot)
  rw [hall, Fintype.sum_bool]

/-! ## The sum in a run -/

section Totals

variable {Tx : Type} [DecidableEq Tx] {balance : RecordId → ℚ} {bank : Bank Tx}

/-- In every run the sum of all balances is what it was at the start, with the
effects of the finished transactions and the staleness of each when it finished. -/
theorem total_eq_effects_add_drift (hreach : (bankSystem balance).Reachable bank) :
    (∃ drift, (moneySystem balance).Reachable (bank, drift)) ∧
      ∀ drift, (moneySystem balance).Reachable (bank, drift) →
        ∃ started : Finset Tx, (∀ tx, tx ∉ started → bank.phase tx = .idle) ∧
          total bank.server.balance =
            total balance + ∑ tx ∈ started, (bank.phase tx).effect + drift :=
  ⟨moneySystem_reachable hreach, fun _ hmoney => moneySystem_balanced hmoney⟩

/-- Two deposits that both read the empty account: the bank has what they meant to
add, and the drift. -/
theorem total_eq_effects_twoDeposits :
    ∃ (bank : Bank Bool) (drift : ℚ), (moneySystem fun _ => 0).Reachable (bank, drift) ∧
      (∀ tx, bank.phase tx = .finished depositRead) ∧
      total bank.server.balance = 2 / 1000 + drift := by
  obtain ⟨bank, hreach, hphase, -⟩ := deposits_reachable
  obtain ⟨⟨drift, hmoney⟩, hlaw⟩ := total_eq_effects_add_drift hreach
  obtain ⟨started, hidle, htotal⟩ := hlaw drift hmoney
  refine ⟨bank, drift, hmoney, hphase, ?_⟩
  have hstarted : ∀ tx, bank.phase tx ≠ .idle := by
    intro tx hnone
    exact nomatch (hphase tx).symm.trans hnone
  have heffect : (bank.phase true).effect + (bank.phase false).effect = 1 / 1000 + 1 / 1000 := by
    rw [hphase true, hphase false]
    rfl
  rw [htotal, total_zero, sum_effect_both hstarted hidle, heffect]
  norm_num

/-- When every grant finds the balances as they were read, no money is lost or made
beside the effects of the finished transactions. -/
theorem total_eq_effects_of_readsCurrent
    (hreach : ((bankSystem balance).restrict ReadsCurrent).Reachable bank) :
    ∃ started : Finset Tx, (∀ tx, tx ∉ started → bank.phase tx = .idle) ∧
      total bank.server.balance = total balance + ∑ tx ∈ started, (bank.phase tx).effect := by
  have hmoney : (moneySystem balance).Reachable (bank, 0) := by
    induction hreach with
    | start hstart => exact .start ⟨hstart, rfl⟩
    | step hprior hstep ih =>
        refine ih.step ⟨hstep.2, ?_⟩
        rw [drift_eq_zero_of_current (current_of_readsCurrent hprior), add_zero]
  obtain ⟨started, hidle, htotal⟩ := moneySystem_balanced hmoney
  exact ⟨started, hidle, htotal.trans (add_zero _)⟩

/-- A deposit and a balance query of one account, which both read it first. -/
theorem total_eq_effects_depositAndBalance :
    ∃ bank : Bank Bool, ((bankSystem fun _ => 0).restrict ReadsCurrent).Reachable bank ∧
      bank.phase false = .finished depositRead ∧ bank.phase true = .finished balanceRead ∧
      total bank.server.balance = 1 / 1000 := by
  obtain ⟨bank, hreach, hdeposit, hquery, -⟩ := depositAndBalance_reachable
  obtain ⟨started, hidle, htotal⟩ := total_eq_effects_of_readsCurrent hreach
  refine ⟨bank, hreach, hdeposit, hquery, ?_⟩
  have hstarted : ∀ tx, bank.phase tx ≠ .idle := by
    rintro (_ | _) hnone
    · exact nomatch hdeposit.symm.trans hnone
    · exact nomatch hquery.symm.trans hnone
  have heffect : (bank.phase true).effect + (bank.phase false).effect = 0 + 1 / 1000 := by
    rw [hdeposit, hquery]
    rfl
  rw [htotal, total_zero, sum_effect_both hstarted hidle, heffect, zero_add, zero_add]

end Totals

/-! ## Locks are always given back -/

section Locks

variable {Tx : Type} [DecidableEq Tx] {balance : RecordId → ℚ} {bank : Bank Tx}

/-- A transaction that holds its locks can finish at once. -/
theorem finish_granted (hreach : (bankSystem balance).Reachable bank) {tx : Tx}
    {transition : Transition} (hgrant : (bank.phase tx).grant = some transition) :
    ∃ server, (bankSystem balance).Path bank (bank.move server tx (.finished transition)) := by
  have hmade := bankSystem_made hreach tx
  cases hphase : bank.phase tx with
  | granted waiting resp =>
      rw [hphase] at hmade hgrant
      obtain rfl := Option.some.inj hgrant
      have hsend : (bankSystem balance).Path bank _ :=
        .single (BankStep.sendFinish (.fill 0) hphase hmade.2)
      have hserve := hsend.step (BankStep.finishHandler (bank.move_phase_self _ _ _))
      rw [Bank.move_move] at hserve
      exact ⟨_, hserve⟩
  | finish waiting req =>
      rw [hphase] at hgrant
      obtain rfl := Option.some.inj hgrant
      exact ⟨_, .single (BankStep.finishHandler hphase)⟩
  | idle | getData | gotData | getLock | refused | finished =>
      rw [hphase] at hgrant
      cases hgrant

/-- All that held locks have finished; the others are where they were. -/
structure Bank.DrainsTo (bank later : Bank Tx) : Prop where
  free : ∀ tx, (later.phase tx).grant = none
  done : ∀ tx transition, (bank.phase tx).grant = some transition →
    later.phase tx = .finished transition
  same : ∀ tx, (bank.phase tx).grant = none → later.phase tx = bank.phase tx

/-- It does not matter who finishes first. -/
theorem Bank.DrainsTo.of_finished {server : Server} {first : Tx} {transition : Transition}
    {later : Bank Tx} (hgrant : (bank.phase first).grant = some transition)
    (hdrains : (bank.move server first (.finished transition)).DrainsTo later) :
    bank.DrainsTo later := by
  have hothers : ∀ tx, tx ≠ first →
      (bank.move server first (.finished transition)).phase tx = bank.phase tx :=
    fun tx hne => Function.update_of_ne hne _ _
  refine ⟨hdrains.free, ?_, ?_⟩
  · intro tx holding hholds
    by_cases heq : tx = first
    · subst heq
      rw [hgrant] at hholds
      obtain rfl := Option.some.inj hholds
      rw [hdrains.same tx (by rw [Bank.move_phase_self]; rfl), Bank.move_phase_self]
    · exact hdrains.done tx holding (by rw [hothers tx heq]; exact hholds)
  · intro tx hnone
    have hne : tx ≠ first := by
      rintro rfl
      rw [hgrant] at hnone
      cases hnone
    rw [hdrains.same tx (by rw [hothers tx hne]; exact hnone), hothers tx hne]

/-- All that hold locks can finish, one after another. -/
theorem exists_drained {pending : Finset Tx} (hreach : (bankSystem balance).Reachable bank)
    (hpending : ∀ tx, tx ∉ pending → (bank.phase tx).grant = none) :
    ∃ later, (bankSystem balance).Path bank later ∧ bank.DrainsTo later := by
  induction pending using Finset.induction_on generalizing bank with
  | empty =>
      have hnone : ∀ tx, (bank.phase tx).grant = none := fun tx =>
        hpending tx (Finset.notMem_empty tx)
      refine ⟨bank, .refl bank, hnone, ?_, fun _ _ => rfl⟩
      intro tx transition hgrant
      rw [hnone tx] at hgrant
      cases hgrant
  | insert first rest _ ih =>
      cases hgrant : (bank.phase first).grant with
      | none =>
          apply ih hreach
          intro tx htx
          by_cases heq : tx = first
          · rw [heq]
            exact hgrant
          · exact hpending tx fun hmem => htx (Finset.mem_of_mem_insert_of_ne hmem heq)
      | some transition =>
          obtain ⟨server, hpath⟩ := finish_granted hreach hgrant
          obtain ⟨later, hlater, hdrains⟩ := ih (hreach.path hpath) fun tx htx => by
            by_cases heq : tx = first
            · rw [heq, Bank.move_phase_self]
              rfl
            · change (Function.update bank.phase first _ tx).grant = none
              rw [Function.update_of_ne heq]
              exact hpending tx fun hmem => htx (Finset.mem_of_mem_insert_of_ne hmem heq)
          exact ⟨later, hpath.trans hlater, hdrains.of_finished hgrant⟩

omit [DecidableEq Tx] in
/-- Nobody holds a lock, so all mutexes are free. -/
theorem Bank.Accounted.mutex_free (hinv : bank.Accounted)
    (hfree : ∀ tx, (bank.phase tx).grant = none) : Matches bank.server.mutex 0 := by
  obtain ⟨active, -, hmatches⟩ := hinv.locks
  have hnone : ∑ tx ∈ active, (bank.phase tx).locks = 0 := by
    apply Finset.sum_eq_zero
    intro tx _
    rw [Phase.locks, hfree tx]
    rfl
  rw [hnone] at hmatches
  exact hmatches

/-- From every reachable state the transactions that hold locks can finish, after which
all mutexes are free; so whoever waits for locks can still get them. -/
theorem locks_drain (hreach : (bankSystem balance).Reachable bank) :
    (∃ later, (bankSystem balance).Path bank later ∧
      (∀ tx transition, (bank.phase tx).grant = some transition →
        later.phase tx = .finished transition) ∧
      (∀ tx, (later.phase tx).grant = none) ∧ later.server.mutex = fun _ => {}) ∧
      ∀ tx transition req, bank.phase tx = .getLock transition req →
        ∃ later, (bankSystem balance).Path bank later ∧
          (later.phase tx).grant = some transition := by
  obtain ⟨active, hidle, -⟩ := (bankSystem_accounted hreach).locks
  obtain ⟨drained, hpath, hfree, hdone, hsame⟩ := exists_drained hreach fun tx htx => by
    rw [hidle tx htx]
    rfl
  have hinv := bankSystem_accounted (hreach.path hpath)
  have hmutex := hinv.mutex_free hfree
  refine ⟨⟨drained, hpath, hdone, hfree, hmutex.eq_free⟩, ?_⟩
  intro tx transition req hphase
  have hwaiting : drained.phase tx = .getLock transition req := by
    rw [hsame tx (by rw [hphase]; rfl), hphase]
  have hok := hinv.ok tx
  rw [hwaiting] at hok
  obtain ⟨hshape, rfl⟩ := hok
  refine ⟨_, hpath.step (BankStep.getLockHandler hwaiting), ?_⟩
  rw [Bank.move_phase_self, if_pos (hshape.granted_of_free hmutex)]
  rfl

/-- One deposit holds the lock that another one asks for. -/
theorem locks_drain_twoDeposits :
    ∃ bank : Bank Bool, bank.WriteGranted false ⟨.checking, 0⟩ ∧
      (∃ later, (bankSystem fun _ => 0).Path bank later ∧ later.server.mutex = fun _ => {}) ∧
      ∃ transition req later, bank.phase true = .getLock transition req ∧
        (bankSystem fun _ => 0).Path bank later ∧ (later.phase true).grant = some transition := by
  obtain ⟨bank, hreach, hgranted, transition, req, hphase, -⟩ := deposits_contend
  obtain ⟨⟨drained, hpath, -, -, hfree⟩, hwaiting⟩ := locks_drain hreach
  obtain ⟨later, hlater, hgrant⟩ := hwaiting true transition req hphase
  exact ⟨bank, hgranted, ⟨drained, hpath, hfree⟩, transition, req, later, hphase, hlater, hgrant⟩

end Locks

end BenchBF3.SmallBank
