import Mathlib.Data.Rat.Defs

/-! # Accounts, records and RPC messages of the eRPC SmallBank

Every request names two users and says something about four records: the
checking and the saving record of each user. The four fields that the source
repeats for these records are kept together in `PerPart`.
-/

namespace BenchBF3.SmallBank

/-- The four records a request speaks about, in the order in which the server
visits them. -/
inductive Part
  | user1Checking
  | user1Saving
  | user2Checking
  | user2Saving
  deriving DecidableEq, Repr

/-- Four fields of a message, one for each record. -/
structure PerPart (α : Type) where
  user1Checking : α
  user1Saving : α
  user2Checking : α
  user2Saving : α
  deriving DecidableEq, Repr

namespace PerPart

variable {α : Type}

def get (fields : PerPart α) : Part → α
  | .user1Checking => fields.user1Checking
  | .user1Saving => fields.user1Saving
  | .user2Checking => fields.user2Checking
  | .user2Saving => fields.user2Saving

def set (fields : PerPart α) (part : Part) (value : α) : PerPart α :=
  match part with
  | .user1Checking => { fields with user1Checking := value }
  | .user1Saving => { fields with user1Saving := value }
  | .user2Checking => { fields with user2Checking := value }
  | .user2Saving => { fields with user2Saving := value }

/-- The same value in all four fields. -/
def fill (value : α) : PerPart α := ⟨value, value, value, value⟩

@[simp] theorem get_fill (value : α) (part : Part) : (fill value).get part = value := by
  cases part <;> rfl

theorem get_set (fields : PerPart α) (part other : Part) (value : α) :
    (fields.set part value).get other = if other = part then value else fields.get other := by
  cases part <;> cases other <;> rfl

end PerPart

inductive LockType
  | noLock
  | readLock
  | writeLock
  deriving DecidableEq, Repr

inductive RpcType
  | ping
  | getData
  | getLock
  | finish
  deriving DecidableEq, Repr

inductive TransmitType
  | amalgamate
  | balance
  | depositChecking
  | sendPayment
  | transactSavings
  | writeCheck
  deriving DecidableEq, Repr

inductive Table
  | checking
  | savings
  deriving DecidableEq, Repr

/-- An entry of `checking_global` or of `savings_global`. -/
structure RecordId where
  table : Table
  entry : Nat
  deriving DecidableEq, Repr

def numEntry : Nat := 4000000 + 1

def numAccounts : Nat := 1000000

def numScale : Nat := numEntry / numAccounts

/-- The two account numbers that every request carries. -/
structure Users where
  user1Id : Nat
  user2Id : Nat
  deriving DecidableEq, Repr

/-- The entry at which the server looks a record up. -/
def Users.record (users : Users) : Part → RecordId
  | .user1Checking => ⟨.checking, users.user1Id * numScale⟩
  | .user1Saving => ⟨.savings, users.user1Id * numScale⟩
  | .user2Checking => ⟨.checking, users.user2Id * numScale⟩
  | .user2Saving => ⟨.savings, users.user2Id * numScale⟩

structure CommonReq where
  type : RpcType
  reqNumber : BitVec 32
  deriving DecidableEq, Repr

structure CommonResp where
  type : RpcType
  reqNumber : BitVec 32
  status : Int
  deriving DecidableEq, Repr

structure RpcMsgReq (α : Type) where
  reqCommon : CommonReq
  reqControl : α

structure RpcMsgResp (α : Type) where
  respCommon : CommonResp
  respControl : α

structure GetDataReq extends Users where
  get : PerPart Bool

structure GetDataResp where
  balance : PerPart ℚ

structure GetLockReq extends Users where
  lock : PerPart LockType
  deriving DecidableEq

structure GetLockResp where
  success : Bool

structure FinishReq extends Users where
  balance : PerPart ℚ
  changed : PerPart Bool
  unlock : PerPart LockType

structure FinishResp where
  success : Bool

end BenchBF3.SmallBank
