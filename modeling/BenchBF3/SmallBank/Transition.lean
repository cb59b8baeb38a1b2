import Mathlib.Data.Rat.Init
import BenchBF3.SmallBank.Message

/-! # Transactions of the eRPC SmallBank client

A `Transition` is one bank transaction. The constructor draws its type and its
accounts; the client turns it into the GET_DATA, GET_LOCK and FINISH requests
and stores the balances that GET_DATA brings back.
-/

namespace BenchBF3.SmallBank

/-- The constructor leaves the four balances uninitialised;
`callback_get_data` sets them before they are read. -/
structure Transition extends Users where
  reqId : BitVec 32
  transmitType : TransmitType
  lock : PerPart LockType := .fill .noLock
  changed : PerPart Bool := .fill false
  amount : ℚ := 1 / 1000
  balance : PerPart ℚ := .fill 0

/-- `while (user2_id == user1_id)`: draw until the second account differs. No
result means that the loop is still running after these draws. -/
def drawOther (user1 : Fin numAccounts) : List (Fin numAccounts) → Option (Fin numAccounts)
  | [] => none
  | user2 :: rest => if user2 = user1 then drawOther user1 rest else some user2

/-- The constructor, with the values that `generateRandomType` and
`generateRandomNumber` return. -/
def Transition.new (reqId : BitVec 32) (transmitType : TransmitType)
    (user1 : Fin numAccounts) (draws : List (Fin numAccounts)) : Option Transition :=
  match transmitType with
  | .amalgamate => do
      let user2 ← drawOther user1 draws
      some { reqId, transmitType, user1Id := user1, user2Id := user2
             lock := ⟨.writeLock, .noLock, .noLock, .writeLock⟩
             changed := ⟨true, false, false, true⟩ }
  | .balance =>
      some { reqId, transmitType, user1Id := user1, user2Id := user1
             lock := ⟨.readLock, .readLock, .noLock, .noLock⟩ }
  | .depositChecking =>
      some { reqId, transmitType, user1Id := user1, user2Id := user1
             lock := ⟨.writeLock, .noLock, .noLock, .noLock⟩
             changed := ⟨true, false, false, false⟩ }
  | .sendPayment => do
      let user2 ← drawOther user1 draws
      some { reqId, transmitType, user1Id := user1, user2Id := user2
             lock := ⟨.writeLock, .noLock, .writeLock, .noLock⟩
             changed := ⟨true, false, true, false⟩ }
  | .transactSavings =>
      some { reqId, transmitType, user1Id := user1, user2Id := user1
             lock := ⟨.noLock, .writeLock, .noLock, .noLock⟩
             changed := ⟨false, true, false, false⟩ }
  | .writeCheck =>
      some { reqId, transmitType, user1Id := user1, user2Id := user1
             lock := ⟨.writeLock, .readLock, .noLock, .noLock⟩
             changed := ⟨true, false, false, false⟩ }

/-- `handler_get_data`: ask for the balances of all records that will be locked. -/
def handlerGetData (reqId : BitVec 32) (transition : Transition) : RpcMsgReq GetDataReq where
  reqCommon := ⟨.getData, reqId⟩
  reqControl := {
    toUsers := transition.toUsers
    get := ⟨transition.lock.user1Checking != .noLock, transition.lock.user1Saving != .noLock,
      transition.lock.user2Checking != .noLock, transition.lock.user2Saving != .noLock⟩ }

/-- The assertions every callback makes on the header of its response. -/
def respHeaderOk (resp : CommonResp) (reqId : BitVec 32) (type : RpcType) : Bool :=
  resp.status == 0 && resp.reqNumber == reqId && resp.type == type

/-- `callback_get_data`; no result means that an assertion failed. -/
def callbackGetData (reqId : BitVec 32) (resp : RpcMsgResp GetDataResp)
    (transition : Transition) : Option Transition :=
  if respHeaderOk resp.respCommon reqId .getData then
    some { transition with balance := resp.respControl.balance }
  else none

def handlerGetLock (reqId : BitVec 32) (transition : Transition) : RpcMsgReq GetLockReq where
  reqCommon := ⟨.getLock, reqId⟩
  reqControl := { toUsers := transition.toUsers, lock := transition.lock }

/-- `callback_get_lock` tells whether to go on with FINISH. -/
def callbackGetLock (reqId : BitVec 32) (resp : RpcMsgResp GetLockResp) : Option Bool :=
  if respHeaderOk resp.respCommon reqId .getLock then some resp.respControl.success else none

/-- The new balances that `handler_finish` puts into the request. Fields that
the transaction does not compute keep what the request buffer held before. -/
def finishBalance (transition : Transition) (stale : PerPart ℚ) : PerPart ℚ :=
  match transition.transmitType with
  | .amalgamate =>
      { stale with
        user2Saving := transition.balance.user1Checking + transition.balance.user2Saving
        user1Checking := 0 }
  | .balance => stale
  | .depositChecking =>
      { stale with user1Checking := transition.balance.user1Checking + transition.amount }
  | .sendPayment =>
      { stale with
        user1Checking := transition.balance.user1Checking - transition.amount
        user2Checking := transition.balance.user2Checking + transition.amount }
  | .transactSavings =>
      { stale with user1Saving := transition.balance.user1Saving - transition.amount }
  | .writeCheck =>
      { stale with user1Checking := transition.balance.user1Checking - transition.amount }

def handlerFinish (reqId : BitVec 32) (transition : Transition) (stale : PerPart ℚ) :
    RpcMsgReq FinishReq where
  reqCommon := ⟨.finish, reqId⟩
  reqControl := {
    toUsers := transition.toUsers
    balance := finishBalance transition stale
    changed := transition.changed
    unlock := transition.lock }

/-- The assertions of `callback_finish`. -/
def callbackFinish (reqId : BitVec 32) (resp : RpcMsgResp FinishResp) : Bool :=
  respHeaderOk resp.respCommon reqId .finish && resp.respControl.success

/-! ## What the constructor can produce -/

theorem drawOther_ne {user1 user2 : Fin numAccounts} {draws : List (Fin numAccounts)}
    (hdraw : drawOther user1 draws = some user2) : user2 ≠ user1 := by
  induction draws with
  | nil => simp [drawOther] at hdraw
  | cons draw rest ih =>
      unfold drawOther at hdraw
      split at hdraw
      · exact ih hdraw
      next hne =>
        rw [← Option.some.inj hdraw]
        exact hne

/-- The shape of a transaction that the constructor produced; it survives the
update of the balances by `callback_get_data`. -/
structure Transition.Shape (transition : Transition) : Prop where
  /-- Only records under a write lock are changed. -/
  changed_writeLock : ∀ part, transition.changed.get part = true →
    transition.lock.get part = .writeLock
  /-- A transaction that uses the second user's records has two users. -/
  users_ne : (transition.lock.user2Checking ≠ .noLock ∨ transition.lock.user2Saving ≠ .noLock) →
    transition.user1Id ≠ transition.user2Id
  /-- The new balance of a changed record is computed from changed records. -/
  computes : ∀ balance balance' stale stale' : PerPart ℚ,
    (∀ part, transition.changed.get part = true → balance.get part = balance'.get part) →
    ∀ part, transition.changed.get part = true →
      (finishBalance { transition with balance := balance } stale).get part =
        (finishBalance { transition with balance := balance' } stale').get part

/-- The records that a transaction locks are pairwise different. -/
theorem Transition.Shape.record_ne {transition : Transition} (hshape : transition.Shape)
    {part other : Part} (hne : part ≠ other) (hpart : transition.lock.get part ≠ .noLock)
    (hother : transition.lock.get other ≠ .noLock) :
    transition.record part ≠ transition.record other := by
  have husers : transition.lock.user2Checking ≠ .noLock ∨
      transition.lock.user2Saving ≠ .noLock →
      transition.user1Id * numScale ≠ transition.user2Id * numScale := by
    intro huses heq
    exact hshape.users_ne huses (Nat.eq_of_mul_eq_mul_right (by decide) heq)
  cases part <;> cases other <;> grind [PerPart.get, Users.record]

theorem Transition.Shape.withBalance {transition : Transition} (hshape : transition.Shape)
    (balance : PerPart ℚ) : { transition with balance := balance }.Shape :=
  ⟨hshape.changed_writeLock, hshape.users_ne, hshape.computes⟩

theorem Transition.new_shape {reqId : BitVec 32} {transmitType : TransmitType}
    {user1 : Fin numAccounts} {draws : List (Fin numAccounts)} {transition : Transition}
    (hnew : Transition.new reqId transmitType user1 draws = some transition) :
    transition.Shape := by
  cases transmitType with
  | amalgamate =>
      simp only [Transition.new, Option.bind_eq_bind, Option.bind_eq_some_iff,
        Option.some.injEq] at hnew
      obtain ⟨user2, hdraw, rfl⟩ := hnew
      have hne := drawOther_ne hdraw
      refine ⟨?_, ?_, ?_⟩
      · rintro (_ | _ | _ | _) <;> simp [PerPart.get]
      · intro _ heq
        exact hne (Fin.ext heq.symm)
      · intro balance balance' stale stale' hbalance part hpart
        have h₁ := hbalance .user1Checking rfl
        have h₂ := hbalance .user2Saving rfl
        simp only [PerPart.get] at h₁ h₂
        cases part <;> simp_all [PerPart.get, finishBalance]
  | sendPayment =>
      simp only [Transition.new, Option.bind_eq_bind, Option.bind_eq_some_iff,
        Option.some.injEq] at hnew
      obtain ⟨user2, hdraw, rfl⟩ := hnew
      have hne := drawOther_ne hdraw
      refine ⟨?_, ?_, ?_⟩
      · rintro (_ | _ | _ | _) <;> simp [PerPart.get]
      · intro _ heq
        exact hne (Fin.ext heq.symm)
      · intro balance balance' stale stale' hbalance part hpart
        have h₁ := hbalance .user1Checking rfl
        have h₂ := hbalance .user2Checking rfl
        simp only [PerPart.get] at h₁ h₂
        cases part <;> simp_all [PerPart.get, finishBalance]
  | balance =>
      obtain rfl := Option.some.inj hnew
      refine ⟨?_, ?_, ?_⟩
      · rintro (_ | _ | _ | _) <;> simp [PerPart.get, PerPart.fill]
      · simp
      · intro balance balance' stale stale' _ part hpart
        simp at hpart
  | transactSavings =>
      obtain rfl := Option.some.inj hnew
      refine ⟨?_, ?_, ?_⟩
      · rintro (_ | _ | _ | _) <;> simp [PerPart.get]
      · simp
      · intro balance balance' stale stale' hbalance part hpart
        have h₁ := hbalance .user1Saving rfl
        cases part <;> simp_all [PerPart.get, finishBalance]
  | depositChecking | writeCheck =>
      obtain rfl := Option.some.inj hnew
      refine ⟨?_, ?_, ?_⟩
      · rintro (_ | _ | _ | _) <;> simp [PerPart.get]
      · simp
      · intro balance balance' stale stale' hbalance part hpart
        have h₁ := hbalance .user1Checking rfl
        cases part <;> simp_all [PerPart.get, finishBalance]

/-- A balance query of the first account. -/
def balanceFirst : Transition where
  reqId := 1
  transmitType := .balance
  user1Id := 0
  user2Id := 0
  lock := ⟨.readLock, .readLock, .noLock, .noLock⟩

/-- A deposit to the checking record of the first account. -/
def depositFirst : Transition where
  reqId := 2
  transmitType := .depositChecking
  user1Id := 0
  user2Id := 0
  lock := ⟨.writeLock, .noLock, .noLock, .noLock⟩
  changed := ⟨true, false, false, false⟩

theorem balanceFirst_new :
    Transition.new 1 .balance ⟨0, by decide⟩ [] = some balanceFirst := rfl

theorem depositFirst_new :
    Transition.new 2 .depositChecking ⟨0, by decide⟩ [] = some depositFirst := rfl

end BenchBF3.SmallBank
