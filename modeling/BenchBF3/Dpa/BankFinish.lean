import BenchBF3.Dpa.BankServer
import BenchBF3.SmallBank.Server

/-! # FINISH in the two SmallBank servers

The eRPC server and the DPA server handle the same FINISH request in separately
written code, over tables of different scale and different kinds of balances.
Both should leave in every record the last value that the request has for it,
and release what the request unlocks. The DPA server leaves out the store of
the second user's saving record, so it does so unless that store is immaterial.
-/

namespace BenchBF3.Dpa

open Foundation Foundation.Program
open SmallBank (Part PerPart Users RecordId Table LockType RpcMsgReq)

/-- The request as the eRPC server gets it: flags other than zero are set, an
unlock flag is a write lock, and balances are read as numbers. -/
def FinishReq.toErpc (value : BitVec 64 → ℚ) (req : FinishReq) :
    RpcMsgReq SmallBank.FinishReq where
  reqCommon := ⟨.finish, req.reqNumber⟩
  reqControl := {
    toUsers := req.toUsers
    balance := ⟨value req.balance.user1Checking, value req.balance.user1Saving,
      value req.balance.user2Checking, value req.balance.user2Saving⟩
    changed := ⟨req.changed.user1Checking != 0, req.changed.user1Saving != 0,
      req.changed.user2Checking != 0, req.changed.user2Saving != 0⟩
    unlock := ⟨if req.unlock.user1Checking ≠ 0 then .writeLock else .noLock,
      if req.unlock.user1Saving ≠ 0 then .writeLock else .noLock,
      if req.unlock.user2Checking ≠ 0 then .writeLock else .noLock,
      if req.unlock.user2Saving ≠ 0 then .writeLock else .noLock⟩ }

/-- The tables of the two servers hold the same accounts. -/
structure Corresponds (value : BitVec 64 → ℚ) (tables : Tables) (server : SmallBank.Server) :
    Prop where
  balance : ∀ table account, server.balance ⟨table, account * SmallBank.numScale⟩ =
    value (tables.balance ⟨table, account * numScale⟩)
  mutex : ∀ table account, (server.mutex ⟨table, account * SmallBank.numScale⟩).writerLock =
    tables.mutex ⟨table, account * numScale⟩

/-- What FINISH should do. In both servers a record has the last value that the
request has for it, or else its old one; the records to unlock are released and
no others; and the tables still hold the same accounts. -/
structure FinishAgrees (value : BitVec 64 → ℚ) (req : FinishReq) (tables tables' : Tables)
    (server server' : SmallBank.Server) : Prop where
  dpaBalance : ∀ record, tables'.balance record =
    (lastWrite (recordOf req.toUsers) (fun part => req.changed.get part ≠ 0) parts record).elim
      (tables.balance record) req.balance.get
  erpcBalance : ∀ record, server'.balance record =
    (lastWrite req.toUsers.record (fun part => req.changed.get part ≠ 0) parts record).elim
      (server.balance record) fun part => value (req.balance.get part)
  dpaMutex : ∀ record, tables'.mutex record = true ↔ tables.mutex record = true ∧
    ∀ part, req.unlock.get part ≠ 0 → recordOf req.toUsers part ≠ record
  erpcUnlocked : ∀ part, req.unlock.get part ≠ 0 →
    server'.mutex (req.toUsers.record part) = (server.mutex (req.toUsers.record part)).unlockWrite
  erpcMutex : ∀ record, (∀ part, req.unlock.get part ≠ 0 → req.toUsers.record part ≠ record) →
    server'.mutex record = server.mutex record
  corresponds : Corresponds value tables' server'

/-- The store that the DPA server leaves out would change nothing: it is not
asked for, or the record has that value anyway, from before or from the store
to the first user's saving record. -/
def StoreImmaterial (req : FinishReq) (tables : Tables) : Prop :=
  req.changed.user2Saving ≠ 0 → req.balance.user2Saving =
    if req.changed.user1Saving ≠ 0 ∧ req.user1Id = req.user2Id then req.balance.user1Saving
    else tables.balance (recordOf req.toUsers .user2Saving)

/-- A record of the request is the same account's in both servers. -/
theorem recordOf_eq_iff (users : Users) (part : Part) (table : Table) (account : Nat) :
    recordOf users part = ⟨table, account * numScale⟩ ↔
      users.record part = ⟨table, account * SmallBank.numScale⟩ := by
  have hscale : ∀ left right : Nat, left * SmallBank.numScale = right * SmallBank.numScale ↔
      left = right := fun left right => Nat.mul_left_inj (by decide)
  cases part <;> simp [recordOf, Users.record, numScale, hscale]

theorem lastWrite_recordOf (users : Users) (written : Part → Prop) [DecidablePred written]
    (table : Table) (account : Nat) :
    lastWrite (recordOf users) written parts ⟨table, account * numScale⟩ =
      lastWrite users.record written parts ⟨table, account * SmallBank.numScale⟩ := by
  simp only [lastWrite, recordOf_eq_iff]

section Finish

variable (req : FinishReq) (tables : Tables)

/-- Of the stores that the DPA server makes, only that to the first user's saving
record can be to the second user's. -/
theorem finish_balance_saving :
    (finish req tables).2.balance (recordOf req.toUsers .user2Saving) =
      if req.changed.user1Saving ≠ 0 ∧ req.user1Id = req.user2Id then req.balance.user1Saving
      else tables.balance (recordOf req.toUsers .user2Saving) := by
  have hlast : lastWrite (recordOf req.toUsers) (fun part => req.changed.get part ≠ 0)
      storedParts (recordOf req.toUsers .user2Saving) =
        if req.changed.user1Saving ≠ 0 ∧ req.user1Id = req.user2Id then some .user1Saving
        else none := by
    have hsaving : recordOf req.toUsers .user1Saving = recordOf req.toUsers .user2Saving ↔
        req.user1Id = req.user2Id := by
      simp [recordOf, numScale]
    have hchecking : lastWrite (recordOf req.toUsers) (fun part => req.changed.get part ≠ 0)
        [.user1Checking] (recordOf req.toUsers .user2Saving) = none := by
      apply lastWrite_eq_none
      intro part hmem _
      rw [List.mem_singleton.mp hmem]
      nofun
    rw [show storedParts = [.user1Checking] ++ [.user1Saving] ++ [.user2Checking] from rfl,
      lastWrite_concat, if_neg (fun hlast => nomatch hlast.2), lastWrite_concat, hchecking]
    simp only [hsaving, PerPart.get]
  refine (foldl_update_apply _ _ _ _ _ _).trans ?_
  rw [hlast]
  split <;> rfl

/-- The DPA server makes all stores but the last one. -/
theorem finish_balance_iff :
    (∀ record, (finish req tables).2.balance record =
      (lastWrite (recordOf req.toUsers) (fun part => req.changed.get part ≠ 0) parts record).elim
        (tables.balance record) req.balance.get) ↔ StoreImmaterial req tables := by
  -- All four writes are the three that the server makes and the one it leaves out.
  have hall : ∀ record, (lastWrite (recordOf req.toUsers)
      (fun part => req.changed.get part ≠ 0) parts record).elim (tables.balance record)
        req.balance.get = (if req.changed.user2Saving ≠ 0 then
          Function.update (finish req tables).2.balance (recordOf req.toUsers .user2Saving)
            req.balance.user2Saving else (finish req tables).2.balance) record := by
    intro record
    rw [← foldl_update_apply]
    rfl
  simp only [hall]
  rw [← funext_iff, StoreImmaterial, ← finish_balance_saving]
  split
  next hchanged =>
    rw [eq_comm, Function.update_eq_self_iff]
    exact ⟨fun heq _ => heq, fun heq => heq hchanged⟩
  next hkept => exact iff_of_true rfl fun hchanged => (hkept hchanged).elim

variable (value : BitVec 64 → ℚ) (server : SmallBank.Server)

theorem toErpc_changed (part : Part) :
    (req.toErpc value).reqControl.changed.get part = true ↔ req.changed.get part ≠ 0 := by
  cases part <;> simp [FinishReq.toErpc, PerPart.get]

theorem toErpc_balance (part : Part) :
    (req.toErpc value).reqControl.balance.get part = value (req.balance.get part) := by
  cases part <;> rfl

theorem toErpc_unlock_iff (part : Part) :
    (req.toErpc value).reqControl.unlock.get part = .writeLock ↔ req.unlock.get part ≠ 0 := by
  cases part <;> simp [FinishReq.toErpc, PerPart.get]

theorem toErpc_unlock_ne (part : Part) :
    (req.toErpc value).reqControl.unlock.get part ≠ .readLock := by
  cases part <;> simp only [FinishReq.toErpc, PerPart.get] <;> split <;> simp

/-- The eRPC server makes all stores. -/
theorem finishHandler_balance (record : RecordId) :
    ((SmallBank.finishHandler (req.toErpc value)).run SmallBank.execute server).2.balance record =
      (lastWrite req.toUsers.record (fun part => req.changed.get part ≠ 0) parts record).elim
        (server.balance record) fun part => value (req.balance.get part) := by
  rw [SmallBank.finishHandler_run_balance, SmallBank.storeBalances, ← foldl_update_apply]
  simp only [toErpc_changed, toErpc_balance]
  rfl

theorem finishHandler_unlocked {part : Part} (hpart : req.unlock.get part ≠ 0) :
    ((SmallBank.finishHandler (req.toErpc value)).run SmallBank.execute server).2.mutex
        (req.toUsers.record part) = (server.mutex (req.toUsers.record part)).unlockWrite :=
  (SmallBank.finishHandler_run_mutex (toErpc_unlock_ne req value) server _).1
    ⟨part, (toErpc_unlock_iff req value part).mpr hpart, rfl⟩

theorem finishHandler_kept {record : RecordId}
    (hnot : ∀ part, req.unlock.get part ≠ 0 → req.toUsers.record part ≠ record) :
    ((SmallBank.finishHandler (req.toErpc value)).run SmallBank.execute server).2.mutex record =
      server.mutex record :=
  (SmallBank.finishHandler_run_mutex (toErpc_unlock_ne req value) server record).2
    fun part hpart => hnot part ((toErpc_unlock_iff req value part).mp hpart)

variable {value server tables} (hcorresponds : Corresponds value tables server)

include hcorresponds

/-- The two servers release the same accounts. -/
theorem finish_mutex_eq (table : Table) (account : Nat) :
    (((SmallBank.finishHandler (req.toErpc value)).run SmallBank.execute server).2.mutex
      ⟨table, account * SmallBank.numScale⟩).writerLock =
      (finish req tables).2.mutex ⟨table, account * numScale⟩ := by
  rw [Bool.eq_iff_iff, finish_mutex_iff, ← hcorresponds.mutex]
  simp only [ne_eq, recordOf_eq_iff]
  -- A record is released in both servers or kept in both.
  by_cases hreleased : ∃ part, req.unlock.get part ≠ 0 ∧
      req.toUsers.record part = ⟨table, account * SmallBank.numScale⟩
  · obtain ⟨part, hpart, hrecord⟩ := hreleased
    rw [← hrecord, finishHandler_unlocked req value server hpart]
    exact iff_of_false Bool.false_ne_true fun hheld => hheld.2 part hpart rfl
  · have hnot : ∀ part, req.unlock.get part ≠ 0 →
        req.toUsers.record part ≠ ⟨table, account * SmallBank.numScale⟩ :=
      fun part hpart hrecord => hreleased ⟨part, hpart, hrecord⟩
    rw [finishHandler_kept req value server hnot]
    exact ⟨fun hheld => ⟨hheld, hnot⟩, fun hheld => hheld.1⟩

/-- For every request, on tables that hold the same accounts: the two servers
finish alike, and as FINISH should, exactly when the store that the DPA server
leaves out would change nothing. -/
theorem finish_agrees_iff :
    FinishAgrees value req tables (finish req tables).2 server
        ((SmallBank.finishHandler (req.toErpc value)).run SmallBank.execute server).2 ↔
      StoreImmaterial req tables := by
  rw [← finish_balance_iff]
  refine ⟨fun hagrees => hagrees.dpaBalance, fun hbalance => ?_⟩
  refine ⟨hbalance, finishHandler_balance req value server, finish_mutex_iff req tables,
    fun part hpart => finishHandler_unlocked req value server hpart,
    fun record hnot => finishHandler_kept req value server hnot, ?_,
    finish_mutex_eq req hcorresponds⟩
  intro table account
  rw [finishHandler_balance, hbalance, lastWrite_recordOf, hcorresponds.balance]
  cases lastWrite req.toUsers.record (fun part => req.changed.get part ≠ 0) parts
    ⟨table, account * SmallBank.numScale⟩ <;> rfl

end Finish

/-- FINISH of an amalgamation of account 1 into the savings of account 2. -/
def finishAmalgamate (saving : BitVec 64) : FinishReq where
  user1Id := 1
  user2Id := 2
  reqNumber := 0
  balance := ⟨0, 0, 0, saving⟩
  changed := ⟨1, 0, 0, 1⟩
  unlock := ⟨2, 0, 0, 2⟩

/-- The tables of both servers with one balance everywhere and no lock held. -/
def uniformTables (balance : BitVec 64) : Tables := ⟨fun _ => balance, fun _ => false⟩

def uniformServer (balance : BitVec 64) : SmallBank.Server := ⟨fun _ => balance.toNat, fun _ => {}⟩

theorem uniform_corresponds (balance : BitVec 64) :
    Corresponds (fun value => value.toNat) (uniformTables balance) (uniformServer balance) :=
  ⟨fun _ _ => rfl, fun _ _ => rfl⟩

/-- Nothing is moved from account 1, so the savings of account 2 stay the same. -/
theorem finish_agrees_amalgamate :
    StoreImmaterial (finishAmalgamate 7) (uniformTables 7) ∧
      FinishAgrees (fun value => value.toNat) (finishAmalgamate 7) (uniformTables 7)
        (finish (finishAmalgamate 7) (uniformTables 7)).2 (uniformServer 7)
        ((SmallBank.finishHandler ((finishAmalgamate 7).toErpc fun value => value.toNat)).run
          SmallBank.execute (uniformServer 7)).2 := by
  have himmaterial : StoreImmaterial (finishAmalgamate 7) (uniformTables 7) := fun _ => rfl
  exact ⟨himmaterial, (finish_agrees_iff _ (uniform_corresponds 7)).mpr himmaterial⟩

/-- The amount moved to the savings of account 2 reaches the eRPC server's table
and is lost in the DPA server's. -/
theorem finish_disagrees :
    (finish (finishAmalgamate 14) (uniformTables 7)).2.balance ⟨.savings, 2⟩ = 7 ∧
      ((SmallBank.finishHandler ((finishAmalgamate 14).toErpc fun value => value.toNat)).run
        SmallBank.execute (uniformServer 7)).2.balance ⟨.savings, 8⟩ = 14 ∧
      ¬ FinishAgrees (fun value => value.toNat) (finishAmalgamate 14) (uniformTables 7)
        (finish (finishAmalgamate 14) (uniformTables 7)).2 (uniformServer 7)
        ((SmallBank.finishHandler ((finishAmalgamate 14).toErpc fun value => value.toNat)).run
          SmallBank.execute (uniformServer 7)).2 := by
  refine ⟨by decide, ?_, ?_⟩
  · rw [finishHandler_balance]
    rfl
  · intro hagrees
    have hsaving := hagrees.dpaBalance ⟨.savings, 2⟩
    exact absurd hsaving (by decide)

end BenchBF3.Dpa
