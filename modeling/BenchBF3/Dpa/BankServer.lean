import Mathlib.Algebra.Order.BigOperators.Group.Multiset
import Mathlib.Algebra.Order.Group.Multiset
import Mathlib.Data.BitVec
import BenchBF3.Foundation.System
import BenchBF3.SmallBank.Message

/-! # The DPA SmallBank server

`process_packet` of the server handles each request as one atomic step on the
two tables. GET_LOCK keeps what it locked in one flag word, but every attempt
overwrites that word, so a refused request rolls back the records that the bits
of the failed attempt's result name, not the ones it took. Such a rollback can
free a record granted to another transaction; exclusion is kept by exactly the
steps that do not.
-/

namespace BenchBF3.Dpa

open Foundation
open SmallBank (Part PerPart Users RecordId Table)

def numScale : Nat := 1

/-- The entry at which the server looks a record up. -/
def recordOf (users : Users) : Part → RecordId
  | .user1Checking => ⟨.checking, users.user1Id * numScale⟩
  | .user1Saving => ⟨.savings, users.user1Id * numScale⟩
  | .user2Checking => ⟨.checking, users.user2Id * numScale⟩
  | .user2Saving => ⟨.savings, users.user2Id * numScale⟩

/-- The order in which the server visits the four records. -/
def parts : List Part := [.user1Checking, .user1Saving, .user2Checking, .user2Saving]

/-- The bit of `lock_flag` that stands for a record. -/
def bitOf : Part → Nat
  | .user1Checking => 0
  | .user1Saving => 1
  | .user2Checking => 2
  | .user2Saving => 3

/-! ## Messages and tables -/

structure GetDataReq extends Users where
  reqNumber : BitVec 32
  get : PerPart UInt8

structure GetDataResp where
  reqNumber : BitVec 32
  status : Int
  balance : PerPart (BitVec 64)

/-- The accounts and lock flags of a transaction. -/
structure LockFlags extends Users where
  lock : PerPart UInt8
  deriving DecidableEq, Repr

structure GetLockReq extends LockFlags where
  reqNumber : BitVec 32

structure GetLockResp where
  reqNumber : BitVec 32
  status : Int
  success : Bool
  deriving DecidableEq, Repr

structure FinishReq extends Users where
  reqNumber : BitVec 32
  balance : PerPart (BitVec 64)
  changed : PerPart UInt8
  unlock : PerPart UInt8

structure FinishResp where
  reqNumber : BitVec 32
  status : Int
  success : Bool

abbrev Mutexes := RecordId → Bool

/-- `checking_global` and `savings_global`; a set mutex is held. -/
structure Tables where
  balance : RecordId → BitVec 64
  mutex : Mutexes

/-- Zero and the mutex taken when it is free; otherwise some other value. -/
def spinTrylock (busy : BitVec 32) (record : RecordId) (mutex : Mutexes) :
    BitVec 32 × Mutexes :=
  if mutex record then (busy, mutex) else (0, Function.update mutex record true)

def spinUnlock (record : RecordId) (mutex : Mutexes) : Mutexes :=
  Function.update mutex record false

/-! ## Handlers -/

/-- A balance that is not asked for keeps what the local `resp` held before. -/
def getData (req : GetDataReq) (stale : PerPart (BitVec 64)) (tables : Tables) : GetDataResp where
  reqNumber := req.reqNumber
  status := 0
  balance := parts.foldl (fun balance part => if req.get.get part ≠ 0 then
    balance.set part (tables.balance (recordOf req.toUsers part)) else balance) stale

/-- The local variables of the GET_LOCK case. -/
structure LockLocals where
  lockFlag : BitVec 32 := 0
  lockFailed : Bool := false

/-- One `if (!lock_failed && req->lock_...)`. Every attempt assigns `lock_flag`. -/
def acquirePart (req : LockFlags) (busy : BitVec 32) (state : LockLocals × Mutexes)
    (part : Part) : LockLocals × Mutexes :=
  if !state.1.lockFailed && req.lock.get part != 0 then
    let outcome := spinTrylock busy (recordOf req.toUsers part) state.2
    if outcome.1 != 0 then (⟨outcome.1, true⟩, outcome.2)
    else (⟨outcome.1 + 1 <<< bitOf part, false⟩, outcome.2)
  else state

/-- One `if (lock_flag & (1 << bit))` of the rollback. -/
def rollbackPart (users : Users) (lockFlag : BitVec 32) (mutex : Mutexes) (part : Part) :
    Mutexes :=
  if lockFlag &&& 1 <<< bitOf part ≠ 0 then spinUnlock (recordOf users part) mutex else mutex

def getLock (req : GetLockReq) (busy : BitVec 32) (tables : Tables) : GetLockResp × Tables :=
  let (locals, mutex) := parts.foldl (acquirePart req.toLockFlags busy) ({}, tables.mutex)
  let mutex := if locals.lockFailed then
    parts.foldl (rollbackPart req.toUsers locals.lockFlag) mutex else mutex
  (⟨req.reqNumber, 0, !locals.lockFailed⟩, { tables with mutex })

/-- The store of `user2_saving` is commented out in the source. -/
def storedParts : List Part := [.user1Checking, .user1Saving, .user2Checking]

def finish (req : FinishReq) (tables : Tables) : FinishResp × Tables :=
  let balance := storedParts.foldl (fun balance part => if req.changed.get part ≠ 0 then
    Function.update balance (recordOf req.toUsers part) (req.balance.get part) else balance)
    tables.balance
  let mutex := parts.foldl (fun mutex part => if req.unlock.get part ≠ 0 then
    spinUnlock (recordOf req.toUsers part) mutex else mutex) tables.mutex
  (⟨req.reqNumber, 0, true⟩, ⟨balance, mutex⟩)

/-! ## What one request does to the mutexes -/

/-- The records that the flags ask for among some of the four. -/
def LockFlags.requestedAmong (req : LockFlags) (among : List Part) : List RecordId :=
  (among.filter fun part => req.lock.get part != 0).map (recordOf req.toUsers)

def LockFlags.requested (req : LockFlags) : List RecordId := req.requestedAmong parts

/-- The requested records are pairwise different and all free. -/
def LockFlags.Grantable (req : LockFlags) (mutex : Mutexes) : Prop :=
  req.requested.Nodup ∧ ∀ record ∈ req.requested, mutex record = false

/-- The records that a request takes one after another, up to the first one that
is held, by another request or by itself. -/
def LockFlags.takenAmong (req : LockFlags) (mutex : Mutexes) : List Part → List RecordId
  | [] => []
  | part :: rest =>
      if req.lock.get part = 0 then req.takenAmong mutex rest
      else if mutex (recordOf req.toUsers part) then []
      else recordOf req.toUsers part ::
        req.takenAmong (Function.update mutex (recordOf req.toUsers part) true) rest

def LockFlags.taken (req : LockFlags) (mutex : Mutexes) : List RecordId :=
  req.takenAmong mutex parts

/-- A rollback with this flag word releases the record. -/
def Names (users : Users) (lockFlag : BitVec 32) (record : RecordId) : Prop :=
  ∃ part, lockFlag &&& 1 <<< bitOf part ≠ 0 ∧ recordOf users part = record

theorem mem_parts (part : Part) : part ∈ parts := by
  cases part <;> decide

/-- After a failed attempt no further attempt is made. -/
theorem foldl_acquirePart_failed (req : LockFlags) (busy : BitVec 32) (rest : List Part)
    {state : LockLocals × Mutexes} (hfailed : state.1.lockFailed = true) :
    rest.foldl (acquirePart req busy) state = state := by
  induction rest with
  | nil => rfl
  | cons part rest ih =>
      have hskip : acquirePart req busy state part = state := by
        simp [acquirePart, hfailed]
      rw [List.foldl_cons, hskip, ih]

theorem LockFlags.requestedAmong_cons (req : LockFlags) (part : Part) (rest : List Part) :
    req.requestedAmong (part :: rest) =
      if req.lock.get part = 0 then req.requestedAmong rest
      else recordOf req.toUsers part :: req.requestedAmong rest := by
  by_cases hflag : req.lock.get part = 0
  · simp [requestedAmong, hflag]
  · simp [requestedAmong, hflag]

section Acquire

variable {req : LockFlags} {busy : BitVec 32} {part : Part}

theorem acquirePart_of_not_requested (hflag : req.lock.get part = 0)
    (state : LockLocals × Mutexes) : acquirePart req busy state part = state := by
  simp [acquirePart, hflag]

/-- A failed attempt leaves nothing but its result in the flag word. -/
theorem acquirePart_of_held (hbusy : busy ≠ 0#32) (hflag : req.lock.get part ≠ 0)
    {mutex : Mutexes} (hheld : mutex (recordOf req.toUsers part) = true) (flag : BitVec 32) :
    acquirePart req busy (⟨flag, false⟩, mutex) part = (⟨busy, true⟩, mutex) := by
  simp [acquirePart, spinTrylock, hflag, hheld, hbusy]

theorem acquirePart_of_free (hflag : req.lock.get part ≠ 0) {mutex : Mutexes}
    (hfree : mutex (recordOf req.toUsers part) = false) (flag : BitVec 32) :
    acquirePart req busy (⟨flag, false⟩, mutex) part =
      (⟨0 + 1 <<< bitOf part, false⟩,
        Function.update mutex (recordOf req.toUsers part) true) := by
  simp [acquirePart, spinTrylock, hflag, hfree]

variable (req)

/-- The attempts succeed exactly when their records are different and free. A
run that fails leaves the result of the failed attempt in the flag word. -/
theorem foldl_acquirePart (hbusy : busy ≠ 0#32) (rest : List Part) (flag : BitVec 32)
    (mutex : Mutexes) :
    ((rest.foldl (acquirePart req busy) (⟨flag, false⟩, mutex)).1.lockFailed = false ↔
      (req.requestedAmong rest).Nodup ∧
        ∀ record ∈ req.requestedAmong rest, mutex record = false) ∧
    ((rest.foldl (acquirePart req busy) (⟨flag, false⟩, mutex)).1.lockFailed = true →
      (rest.foldl (acquirePart req busy) (⟨flag, false⟩, mutex)).1.lockFlag = busy) := by
  induction rest generalizing flag mutex with
  | nil => simp [LockFlags.requestedAmong]
  | cons part rest ih =>
      rw [List.foldl_cons, LockFlags.requestedAmong_cons]
      by_cases hflag : req.lock.get part = 0
      · rw [acquirePart_of_not_requested hflag, if_pos hflag]
        exact ih flag mutex
      · rw [if_neg hflag]
        cases hheld : mutex (recordOf req.toUsers part) with
        | true =>
            rw [acquirePart_of_held hbusy hflag hheld, foldl_acquirePart_failed req busy rest rfl]
            simp [hheld]
        | false =>
            rw [acquirePart_of_free hflag hheld]
            obtain ⟨hok, hword⟩ := ih (0 + 1 <<< bitOf part)
              (Function.update mutex (recordOf req.toUsers part) true)
            refine ⟨?_, hword⟩
            -- The rest is free after this attempt when it is free before and does not repeat it.
            rw [hok]
            grind [Function.update_apply]

/-- The mutexes when the attempts are over: those held before and those taken. -/
theorem foldl_acquirePart_mutex (hbusy : busy ≠ 0#32) (rest : List Part) (flag : BitVec 32)
    (mutex : Mutexes) (record : RecordId) :
    (rest.foldl (acquirePart req busy) (⟨flag, false⟩, mutex)).2 record = true ↔
      mutex record = true ∨ record ∈ req.takenAmong mutex rest := by
  induction rest generalizing flag mutex with
  | nil => simp [LockFlags.takenAmong]
  | cons part rest ih =>
      rw [List.foldl_cons, LockFlags.takenAmong]
      by_cases hflag : req.lock.get part = 0
      · rw [acquirePart_of_not_requested hflag, if_pos hflag]
        exact ih flag mutex
      · rw [if_neg hflag]
        cases hheld : mutex (recordOf req.toUsers part) with
        | true =>
            rw [acquirePart_of_held hbusy hflag hheld, foldl_acquirePart_failed req busy rest rfl]
            simp
        | false =>
            rw [acquirePart_of_free hflag hheld, ih, Function.update_apply,
              if_neg Bool.false_ne_true, List.mem_cons]
            by_cases heq : record = recordOf req.toUsers part
            · simp [heq]
            · simp [heq]

end Acquire

/-- Different free records are all taken. -/
theorem LockFlags.takenAmong_eq {req : LockFlags} {mutex : Mutexes} {rest : List Part}
    (hnodup : (req.requestedAmong rest).Nodup)
    (hfree : ∀ record ∈ req.requestedAmong rest, mutex record = false) :
    req.takenAmong mutex rest = req.requestedAmong rest := by
  induction rest generalizing mutex with
  | nil => rfl
  | cons part rest ih =>
      by_cases hflag : req.lock.get part = 0
      · rw [requestedAmong_cons, if_pos hflag] at hnodup hfree ⊢
        rw [takenAmong, if_pos hflag]
        exact ih hnodup hfree
      · rw [requestedAmong_cons, if_neg hflag] at hnodup hfree ⊢
        rw [List.nodup_cons] at hnodup
        rw [List.forall_mem_cons] at hfree
        rw [takenAmong, if_neg hflag, hfree.1, if_neg Bool.false_ne_true, ih hnodup.2]
        intro record hmem
        rw [Function.update_of_ne (ne_of_mem_of_not_mem hmem hnodup.1)]
        exact hfree.2 record hmem

/-- Releases leave a mutex held exactly when none of them is on its record. -/
theorem foldl_spinUnlock (users : Users) (releases : Part → Prop) [DecidablePred releases]
    (among : List Part) (mutex : Mutexes) (record : RecordId) :
    among.foldl (fun mutex part => if releases part then
      spinUnlock (recordOf users part) mutex else mutex) mutex record = true ↔
      mutex record = true ∧ ∀ part ∈ among, releases part → recordOf users part ≠ record := by
  induction among generalizing mutex with
  | nil => simp
  | cons part rest ih =>
      rw [List.foldl_cons, ih, List.forall_mem_cons]
      split
      next hreleases =>
        by_cases heq : record = recordOf users part
        · simp [spinUnlock, heq, hreleases]
        · simp [spinUnlock, Function.update_of_ne heq, Ne.symm heq]
      next hkept => simp [hkept]

section GetLock

variable (req : GetLockReq) {busy : BitVec 32} (hbusy : busy ≠ 0#32) (tables : Tables)

include hbusy

theorem getLock_success :
    (getLock req busy tables).1.success = true ↔
      req.toLockFlags.Grantable tables.mutex := by
  have hspec := (foldl_acquirePart req.toLockFlags hbusy parts 0 tables.mutex).1
  simpa [getLock, LockFlags.Grantable, LockFlags.requested] using hspec

/-- A granted request holds its records, and no other mutex changes. -/
theorem getLock_mutex_of_grantable (hgrantable : req.toLockFlags.Grantable tables.mutex)
    (record : RecordId) :
    (getLock req busy tables).2.mutex record = true ↔
      tables.mutex record = true ∨ record ∈ req.toLockFlags.requested := by
  have hdone := (foldl_acquirePart req.toLockFlags hbusy parts 0 tables.mutex).1.mpr hgrantable
  simp only [getLock, hdone, Bool.false_eq_true, if_false]
  rw [foldl_acquirePart_mutex req.toLockFlags hbusy,
    LockFlags.takenAmong_eq hgrantable.1 hgrantable.2]
  rfl

/-- After a refused request: the records held before and those taken, without
the ones that the bits of the busy value name. -/
theorem getLock_mutex_of_refused (hrefused : ¬ req.toLockFlags.Grantable tables.mutex)
    (record : RecordId) :
    (getLock req busy tables).2.mutex record = true ↔
      (tables.mutex record = true ∨ record ∈ req.toLockFlags.taken tables.mutex) ∧
        ¬ Names req.toUsers busy record := by
  obtain ⟨hok, hword⟩ := foldl_acquirePart req.toLockFlags hbusy parts 0 tables.mutex
  have hfailed := Bool.eq_true_of_not_eq_false (hok.not.mpr hrefused)
  simp only [getLock, hfailed, if_true, hword hfailed]
  refine (foldl_spinUnlock req.toUsers (fun part => busy &&& 1 <<< bitOf part ≠ 0) parts _
    record).trans ?_
  rw [foldl_acquirePart_mutex req.toLockFlags hbusy]
  simp only [mem_parts, forall_const, Names, not_exists, not_and, LockFlags.taken]

/-- A refused request frees exactly the held records that the bits of the busy
value name. -/
theorem getLock_mutex_of_not_grantable (hrefused : ¬ req.toLockFlags.Grantable tables.mutex)
    {record : RecordId} (hheld : tables.mutex record = true) :
    (getLock req busy tables).2.mutex record = true ↔ ¬ Names req.toUsers busy record := by
  rw [getLock_mutex_of_refused req hbusy tables hrefused]
  exact and_iff_right (.inl hheld)

end GetLock

theorem finish_mutex_iff (req : FinishReq) (tables : Tables) (record : RecordId) :
    (finish req tables).2.mutex record = true ↔ tables.mutex record = true ∧
      ∀ part, req.unlock.get part ≠ 0 → recordOf req.toUsers part ≠ record := by
  refine (foldl_spinUnlock req.toUsers (fun part => req.unlock.get part ≠ 0) parts tables.mutex
    record).trans ?_
  simp only [mem_parts, forall_const]

theorem finish_mutex (req : FinishReq) (tables : Tables) (record : RecordId) :
    (finish req tables).2.mutex record = true ↔ tables.mutex record = true ∧
      record ∉ (LockFlags.mk req.toUsers req.unlock).requested := by
  rw [finish_mutex_iff]
  simp [LockFlags.requested, LockFlags.requestedAmong, mem_parts]

/-! ## Clients and their grants -/

/-- The tables, and the transactions whose GET_LOCK was answered with success
and whose FINISH has not been handled. -/
structure BankState where
  tables : Tables
  granted : Multiset LockFlags

/-- A busy mutex answers with some nonzero value; at most one attempt of a
request meets one. -/
inductive BankAction
  | getLock (req : GetLockReq) (busy : BitVec 32)
  | finish (req : FinishReq)

/-- A client sends FINISH with the accounts and lock flags of a granted
transaction, and with any values and changed flags. -/
inductive BankStep : BankState → BankAction → BankState → Prop
  | getLock {state : BankState} (req : GetLockReq) {busy : BitVec 32} (hbusy : busy ≠ 0#32) :
      BankStep state (.getLock req busy)
        ⟨(getLock req busy state.tables).2,
          if (getLock req busy state.tables).1.success then req.toLockFlags ::ₘ state.granted
          else state.granted⟩
  | finish {tables : Tables} {others : Multiset LockFlags} (req : FinishReq) :
      BankStep ⟨tables, ⟨req.toUsers, req.unlock⟩ ::ₘ others⟩ (.finish req)
        ⟨(finish req tables).2, others⟩

/-- The server from its initialised tables, with all mutexes free. -/
def bankSystem : System BankState BankAction where
  start state := (∀ record, state.tables.mutex record = false) ∧ state.granted = 0
  step := BankStep

/-- The records of all granted unfinished transactions. -/
def BankState.grantedRecords (state : BankState) : Multiset RecordId :=
  (state.granted.map fun req => (req.requested : Multiset RecordId)).sum

/-- Every record is granted at most once, and a granted record has its mutex held. -/
structure BankState.Exclusive (state : BankState) : Prop where
  nodup : state.grantedRecords.Nodup
  held : ∀ record ∈ state.grantedRecords, state.tables.mutex record = true

/-- No refused GET_LOCK whose busy value names a granted record. -/
def HarmlessRefusal (state : BankState) (action : BankAction) : Prop :=
  ∀ req busy, action = .getLock req busy → ¬ req.toLockFlags.Grantable state.tables.mutex →
    ∀ record ∈ state.grantedRecords, ¬ Names req.toUsers busy record

theorem BankState.grantedRecords_cons (tables : Tables) (req : LockFlags)
    (others : Multiset LockFlags) :
    (BankState.mk tables (req ::ₘ others)).grantedRecords =
      (req.requested : Multiset RecordId) + (BankState.mk tables others).grantedRecords := by
  simp only [grantedRecords, Multiset.map_cons, Multiset.sum_cons]

/-- The records of a new grant were free, so none of them was granted. -/
theorem BankState.Exclusive.grant {tables : Tables} {granted : Multiset LockFlags}
    (hexclusive : Exclusive ⟨tables, granted⟩) {req : GetLockReq} {busy : BitVec 32}
    (hbusy : busy ≠ 0#32) (hgrantable : req.toLockFlags.Grantable tables.mutex) :
    Exclusive ⟨(getLock req busy tables).2, req.toLockFlags ::ₘ granted⟩ := by
  constructor
  · rw [grantedRecords_cons, Multiset.nodup_add]
    refine ⟨Multiset.coe_nodup.mpr hgrantable.1, hexclusive.nodup, ?_⟩
    rw [Multiset.disjoint_left]
    intro record hnew hold
    have hfree := hgrantable.2 record (Multiset.mem_coe.mp hnew)
    have hheld : tables.mutex record = true := hexclusive.held record hold
    rw [hheld] at hfree
    cases hfree
  · intro record hmem
    rw [grantedRecords_cons, Multiset.mem_add, Multiset.mem_coe] at hmem
    rw [getLock_mutex_of_grantable req hbusy tables hgrantable]
    exact hmem.symm.imp_left (hexclusive.held record)

/-- A FINISH releases the records of its own grant only. -/
theorem BankState.Exclusive.finish {tables : Tables} {others : Multiset LockFlags}
    {req : FinishReq} (hexclusive : Exclusive ⟨tables, ⟨req.toUsers, req.unlock⟩ ::ₘ others⟩) :
    Exclusive ⟨(Dpa.finish req tables).2, others⟩ := by
  obtain ⟨hnodup, hheld⟩ := hexclusive
  rw [grantedRecords_cons] at hnodup hheld
  obtain ⟨-, hothers, hdisjoint⟩ := Multiset.nodup_add.mp hnodup
  refine ⟨hothers, ?_⟩
  intro record hmem
  rw [finish_mutex]
  refine ⟨hheld record (Multiset.mem_add.mpr (.inr hmem)), ?_⟩
  intro hreleased
  exact Multiset.disjoint_left.mp hdisjoint (Multiset.mem_coe.mpr hreleased) hmem

/-- From an exclusive state, a step keeps exclusion exactly when it is not a
harmful refusal. -/
theorem BankStep.exclusive_iff {state next : BankState} {action : BankAction}
    (hstep : BankStep state action next) (hexclusive : state.Exclusive) :
    next.Exclusive ↔ HarmlessRefusal state action := by
  cases hstep with
  | @getLock _ req busy hbusy =>
      by_cases hgrantable : req.toLockFlags.Grantable state.tables.mutex
      · rw [if_pos ((getLock_success req hbusy state.tables).mpr hgrantable)]
        refine iff_of_true (hexclusive.grant hbusy hgrantable) ?_
        intro req' busy' haction hrefused
        obtain ⟨rfl, rfl⟩ := BankAction.getLock.inj haction
        exact (hrefused hgrantable).elim
      · have hmutex : ∀ record ∈ state.grantedRecords, _ := fun record hmem =>
          getLock_mutex_of_not_grantable req hbusy state.tables hgrantable
            (hexclusive.held record hmem)
        rw [if_neg ((getLock_success req hbusy state.tables).not.mpr hgrantable)]
        constructor
        · intro hnext req' busy' haction _ record hmem
          obtain ⟨rfl, rfl⟩ := BankAction.getLock.inj haction
          exact (hmutex record hmem).mp (hnext.held record hmem)
        · intro hharmless
          refine ⟨hexclusive.nodup, ?_⟩
          intro record hmem
          exact (hmutex record hmem).mpr (hharmless req busy rfl hgrantable record hmem)
  | finish req => exact iff_of_true hexclusive.finish nofun

/-- In every run without a harmful refusal the grants are exclusive, and the
next step keeps them so exactly when it is not a harmful refusal either. -/
theorem exclusive_iff_harmlessRefusal {state : BankState}
    (hreach : (bankSystem.restrict HarmlessRefusal).Reachable state) :
    state.Exclusive ∧ ∀ action next, bankSystem.step state action next →
      (next.Exclusive ↔ HarmlessRefusal state action) := by
  have hexclusive : state.Exclusive := by
    apply hreach.invariant
    · rintro ⟨tables, granted⟩ ⟨-, hnone⟩
      dsimp only at hnone
      subst granted
      exact ⟨by simp [BankState.grantedRecords], by simp [BankState.grantedRecords]⟩
    · intro state action next _ hinv hstep
      exact (BankStep.exclusive_iff hstep.2 hinv).mpr hstep.1
  exact ⟨hexclusive, fun action next hstep => BankStep.exclusive_iff hstep hexclusive⟩

/-- A deposit to the checking record of account 5. -/
def depositFive : GetLockReq where
  user1Id := 5
  user2Id := 0
  lock := ⟨2, 0, 0, 0⟩
  reqNumber := 0

/-- Before any request: nothing is held. -/
def idleState : BankState := ⟨⟨fun _ => 0, fun _ => false⟩, 0⟩

theorem depositFive_granted (busy : BitVec 32) (hbusy : busy ≠ 0#32) (tables : Tables)
    (granted : Multiset LockFlags) (hfree : tables.mutex ⟨.checking, 5⟩ = false) :
    BankStep ⟨tables, granted⟩ (.getLock depositFive busy)
      ⟨(getLock depositFive busy tables).2, depositFive.toLockFlags ::ₘ granted⟩ := by
  have hgrantable : depositFive.toLockFlags.Grantable tables.mutex :=
    ⟨by decide, fun record hmem => by rwa [List.mem_singleton.mp hmem]⟩
  have hstep := @BankStep.getLock ⟨tables, granted⟩ depositFive busy hbusy
  rwa [if_pos ((getLock_success depositFive hbusy tables).mpr hgrantable)] at hstep

/-- With the busy value 1 a refused deposit frees the record. -/
theorem depositFive_refused (tables : Tables) (granted : Multiset LockFlags)
    (hheld : tables.mutex ⟨.checking, 5⟩ = true) :
    BankStep ⟨tables, granted⟩ (.getLock depositFive 1)
      ⟨(getLock depositFive 1 tables).2, granted⟩ ∧
      (getLock depositFive 1 tables).2.mutex ⟨.checking, 5⟩ = false := by
  have hbusy : (1 : BitVec 32) ≠ 0#32 := by decide
  have hrefused : ¬ depositFive.toLockFlags.Grantable tables.mutex := by
    intro hgrantable
    have hfree := hgrantable.2 ⟨.checking, 5⟩ (by decide)
    rw [hheld] at hfree
    cases hfree
  constructor
  · have hstep := @BankStep.getLock ⟨tables, granted⟩ depositFive 1 hbusy
    rwa [if_neg ((getLock_success depositFive hbusy tables).not.mpr hrefused)] at hstep
  · apply Bool.eq_false_of_not_eq_true
    rw [getLock_mutex_of_not_grantable depositFive hbusy tables hrefused hheld, not_not]
    exact ⟨.user1Checking, by decide, rfl⟩

/-- One granted deposit is exclusive, and a refused second one keeps it so when
the busy value names no record. -/
theorem exclusive_depositFive :
    ∃ state, (⟨.checking, 5⟩ : RecordId) ∈ state.grantedRecords ∧ state.Exclusive ∧
      ∀ next, bankSystem.step state (.getLock depositFive 16) next → next.Exclusive := by
  have hstart : (bankSystem.restrict HarmlessRefusal).Reachable idleState :=
    .start ⟨fun _ => rfl, rfl⟩
  have hgranted := hstart.step ⟨by
    rintro req busy - - record hmem
    exact (Multiset.notMem_zero record hmem).elim, depositFive_granted 1 (by decide) _ _ rfl⟩
  obtain ⟨hexclusive, hnext⟩ := exclusive_iff_harmlessRefusal hgranted
  refine ⟨_, by decide, hexclusive, fun next hstep => (hnext _ next hstep).mpr ?_⟩
  rintro req busy haction - record - ⟨part, hbit, -⟩
  obtain ⟨rfl, rfl⟩ := BankAction.getLock.inj haction
  exact hbit (by cases part <;> decide)

/-- A deposit is granted; a second one is refused, and its rollback frees the
record; a third one is granted while the first is unfinished. -/
theorem deposit_granted_twice :
    ∃ state, bankSystem.Reachable state ∧ ¬ state.Exclusive ∧
      state.grantedRecords.count ⟨.checking, 5⟩ = 2 := by
  have hstart : bankSystem.Reachable idleState := .start ⟨fun _ => rfl, rfl⟩
  have hfirst := hstart.step (depositFive_granted 1 (by decide) _ _ rfl)
  obtain ⟨hrefused, hfreed⟩ := depositFive_refused (getLock depositFive 1 idleState.tables).2
    (depositFive.toLockFlags ::ₘ 0) rfl
  have hsecond := (hfirst.step hrefused).step (depositFive_granted 1 (by decide) _ _ hfreed)
  refine ⟨_, hsecond, ?_, by decide⟩
  intro hexclusive
  exact absurd hexclusive.nodup (by decide)

end BenchBF3.Dpa
