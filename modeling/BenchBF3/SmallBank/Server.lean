import Mathlib.Data.Rat.Defs
import Mathlib.Algebra.Order.Group.Multiset
import Mathlib.Tactic.Abel
import BenchBF3.Foundation.Footprint
import BenchBF3.Foundation.Program
import BenchBF3.SmallBank.Mutex

/-! # The eRPC SmallBank server

The request handlers are programs over the accesses they make to the two
tables. Running a handler alone is its meaning as one atomic step; the
interleaving of handlers on several server threads keeps the same programs
and executes them call by call. What a handler does with locks is proved once,
for both readings, as safety under `lockDiscipline`.
-/

namespace BenchBF3.SmallBank

open Foundation Foundation.Program

/-- One atomic access to `checking_global` or `savings_global`. -/
inductive ServerCall
  | tryLockRead (record : RecordId)
  | tryLockWrite (record : RecordId)
  | unlockRead (record : RecordId)
  | unlockWrite (record : RecordId)
  | loadBalance (record : RecordId)
  | storeBalance (record : RecordId) (value : ℚ)

@[reducible] def ServerCall.Reply : ServerCall → Type
  | .tryLockRead _ | .tryLockWrite _ => Bool
  | .unlockRead _ | .unlockWrite _ | .storeBalance _ _ => Unit
  | .loadBalance _ => ℚ

/-- The two tables: the balance and the mutex of every entry. -/
structure Server where
  balance : RecordId → ℚ
  mutex : Mutexes

def execute : (operation : ServerCall) → Server → operation.Reply × Server
  | .tryLockRead record, server =>
      let outcome := (server.mutex record).tryLockRead
      (outcome.1, { server with mutex := Function.update server.mutex record outcome.2 })
  | .tryLockWrite record, server =>
      let outcome := (server.mutex record).tryLockWrite
      (outcome.1, { server with mutex := Function.update server.mutex record outcome.2 })
  | .unlockRead record, server =>
      ((), { server with
        mutex := Function.update server.mutex record (server.mutex record).unlockRead })
  | .unlockWrite record, server =>
      ((), { server with
        mutex := Function.update server.mutex record (server.mutex record).unlockWrite })
  | .loadBalance record, server => (server.balance record, server)
  | .storeBalance record value, server =>
      ((), { server with balance := Function.update server.balance record value })

abbrev Handler (α : Type) := Program ServerCall ServerCall.Reply α

/-! ## Handlers -/

/-- One `if (get_...)` of `get_data_handler`. A balance that is not asked for
keeps what the response buffer held before. -/
def loadPart (req : GetDataReq) (part : Part) (balance : PerPart ℚ) : Handler (PerPart ℚ) :=
  if req.get.get part then do
    let value ← perform (.loadBalance (req.record part))
    pure (balance.set part value)
  else pure balance

def getDataHandler (req : RpcMsgReq GetDataReq) (stale : GetDataResp) :
    Handler (RpcMsgResp GetDataResp) := do
  let balance ← loadPart req.reqControl .user1Checking stale.balance
  let balance ← loadPart req.reqControl .user1Saving balance
  let balance ← loadPart req.reqControl .user2Checking balance
  let balance ← loadPart req.reqControl .user2Saving balance
  pure ⟨⟨req.reqCommon.type, req.reqCommon.reqNumber, 0⟩, ⟨balance⟩⟩

/-- The local variables of `get_lock_handler`: what it has locked so far, and
whether an attempt failed. -/
structure LockLocals where
  lock : PerPart LockType := .fill .noLock
  lockFailed : Bool := false

/-- One `if (!lock_failed) switch (lock_...)` of `get_lock_handler`. -/
def acquirePart (req : GetLockReq) (part : Part) (locals : LockLocals) :
    Handler LockLocals :=
  if !locals.lockFailed then
    match req.lock.get part with
    | .noLock => pure locals
    | .readLock => do
        let locked ← perform (.tryLockRead (req.record part))
        if locked then pure { locals with lock := locals.lock.set part .readLock }
        else pure { locals with lockFailed := true }
    | .writeLock => do
        let locked ← perform (.tryLockWrite (req.record part))
        if locked then pure { locals with lock := locals.lock.set part .writeLock }
        else pure { locals with lockFailed := true }
  else pure locals

/-- Release one record: the rollback of `get_lock_handler` and the unlocking
of `finish_handler` share this code. -/
def unlockPart (users : Users) (lock : PerPart LockType) (part : Part) : Handler Unit :=
  match lock.get part with
  | .noLock => pure ()
  | .readLock => perform (ServerCall.unlockRead (users.record part))
  | .writeLock => perform (ServerCall.unlockWrite (users.record part))

def unlockParts (users : Users) (lock : PerPart LockType) : Handler Unit := do
  unlockPart users lock .user1Checking
  unlockPart users lock .user1Saving
  unlockPart users lock .user2Checking
  unlockPart users lock .user2Saving

def getLockHandler (req : RpcMsgReq GetLockReq) : Handler (RpcMsgResp GetLockResp) := do
  let locals ← acquirePart req.reqControl .user1Checking {}
  let locals ← acquirePart req.reqControl .user1Saving locals
  let locals ← acquirePart req.reqControl .user2Checking locals
  let locals ← acquirePart req.reqControl .user2Saving locals
  if locals.lockFailed then unlockParts req.reqControl.toUsers locals.lock
  pure ⟨⟨req.reqCommon.type, req.reqCommon.reqNumber, 0⟩, ⟨!locals.lockFailed⟩⟩

/-- One `if (changed_...)` of `finish_handler`. -/
def storePart (req : FinishReq) (part : Part) : Handler Unit :=
  if req.changed.get part then
    perform (ServerCall.storeBalance (req.record part) (req.balance.get part))
  else pure ()

def finishHandler (req : RpcMsgReq FinishReq) : Handler (RpcMsgResp FinishResp) := do
  storePart req.reqControl .user1Checking
  storePart req.reqControl .user1Saving
  storePart req.reqControl .user2Checking
  storePart req.reqControl .user2Saving
  unlockParts req.reqControl.toUsers req.reqControl.unlock
  pure ⟨⟨req.reqCommon.type, req.reqCommon.reqNumber, 0⟩, ⟨true⟩⟩

/-! ## The ledger of held locks -/

def LockType.held (lock : LockType) (record : RecordId) : Multiset Lock :=
  match lock with
  | .noLock => 0
  | .readLock => {(record, .read)}
  | .writeLock => {(record, .write)}

/-- The locks that four lock fields stand for. -/
def Users.held (users : Users) (lock : PerPart LockType) : Multiset Lock :=
  lock.user1Checking.held (users.record .user1Checking) +
    lock.user1Saving.held (users.record .user1Saving) +
    lock.user2Checking.held (users.record .user2Checking) +
    lock.user2Saving.held (users.record .user2Saving)

@[simp] theorem Users.held_fill (users : Users) : users.held (.fill .noLock) = 0 := rfl

theorem Users.held_set (users : Users) {lock : PerPart LockType} {part : Part}
    (hfree : lock.get part = .noLock) (taken : LockType) :
    users.held (lock.set part taken) = taken.held (users.record part) + users.held lock := by
  have hnone : ∀ record, LockType.noLock.held record = 0 := fun _ => rfl
  cases part <;> simp only [PerPart.get] at hfree <;>
    simp only [Users.held, PerPart.set, hfree, hnone] <;> abel

/-- A lock may be released only by its holder, and a successful attempt adds
the lock to the ledger of the one who made it. -/
def lockDiscipline : Discipline ServerCall ServerCall.Reply (Multiset Lock) where
  permits
    | .unlockRead record, held => (record, .read) ∈ held
    | .unlockWrite record, held => (record, .write) ∈ held
    | _, _ => True
  after
    | .tryLockRead record, locked, held => if locked then (record, .read) ::ₘ held else held
    | .tryLockWrite record, locked, held => if locked then (record, .write) ::ₘ held else held
    | .unlockRead record, _, held => held.erase (record, .read)
    | .unlockWrite record, _, held => held.erase (record, .write)
    | .loadBalance _, _, held => held
    | .storeBalance _ _, _, held => held

section Discipline

variable (record : RecordId) (held : Multiset Lock)

@[simp] theorem after_tryLockRead (locked : Bool) :
    lockDiscipline.after (.tryLockRead record) locked held =
      if locked then (record, .read) ::ₘ held else held := rfl

@[simp] theorem after_tryLockWrite (locked : Bool) :
    lockDiscipline.after (.tryLockWrite record) locked held =
      if locked then (record, .write) ::ₘ held else held := rfl

@[simp] theorem after_unlockRead (reply : Unit) :
    lockDiscipline.after (.unlockRead record) reply held = held.erase (record, .read) := rfl

@[simp] theorem after_unlockWrite (reply : Unit) :
    lockDiscipline.after (.unlockWrite record) reply held = held.erase (record, .write) := rfl

@[simp] theorem permits_unlockRead :
    lockDiscipline.permits (.unlockRead record) held ↔ (record, .read) ∈ held := Iff.rfl

@[simp] theorem permits_unlockWrite :
    lockDiscipline.permits (.unlockWrite record) held ↔ (record, .write) ∈ held := Iff.rfl

end Discipline

/-- A permitted call keeps the mutexes in agreement with the caller's ledger
and whatever `others` hold. -/
theorem execute_matches (others : Multiset Lock) (operation : ServerCall) (server : Server)
    (held : Multiset Lock) (hpermits : lockDiscipline.permits operation held)
    (hmatches : Matches server.mutex (held + others)) :
    Matches (execute operation server).2.mutex
      (lockDiscipline.after operation (execute operation server).1 held + others) := by
  cases operation with
  | tryLockRead record =>
      have hnext := hmatches.tryLockRead record
      simp only [execute, after_tryLockRead]
      split at hnext <;> simp_all
  | tryLockWrite record =>
      have hnext := hmatches.tryLockWrite record
      simp only [execute, after_tryLockWrite]
      split at hnext <;> simp_all
  | unlockRead record =>
      have hnext := hmatches.unlockRead (Multiset.mem_add.mpr (.inl hpermits))
      rwa [Multiset.erase_add_left_pos _ hpermits] at hnext
  | unlockWrite record =>
      have hnext := hmatches.unlockWrite (Multiset.mem_add.mpr (.inl hpermits))
      rwa [Multiset.erase_add_left_pos _ hpermits] at hnext
  | loadBalance record => exact hmatches
  | storeBalance record value => exact hmatches

/-- The ledger follows the local variables: what one attempt adds is recorded
in its own field, and an attempt that does not fail takes what was asked. -/
theorem acquirePart_safe (req : GetLockReq) (part : Part) (locals : LockLocals)
    (hfree : locals.lock.get part = .noLock) :
    (acquirePart req part locals).Safe lockDiscipline
      (fun locals' held => held = req.toUsers.held locals'.lock ∧
        (∀ other, other ≠ part → locals'.lock.get other = locals.lock.get other) ∧
        (locals'.lockFailed = false → locals.lockFailed = false ∧
          locals'.lock.get part = req.lock.get part))
      (req.toUsers.held locals.lock) := by
  unfold acquirePart
  cases hfailed : locals.lockFailed with
  | true => simp [hfailed]
  | false =>
      cases hlock : req.lock.get part with
      | noLock => simp [hfailed, hfree]
      | readLock =>
          refine Safe.bind ⟨trivial, ?_⟩
          intro locked
          cases locked with
          | true =>
              refine ⟨?_, ?_, ?_⟩
              · simp [req.toUsers.held_set hfree, LockType.held]
              · intro other hne
                simp [PerPart.get_set, hne]
              · simp [PerPart.get_set]
          | false => simp
      | writeLock =>
          refine Safe.bind ⟨trivial, ?_⟩
          intro locked
          cases locked with
          | true =>
              refine ⟨?_, ?_, ?_⟩
              · simp [req.toUsers.held_set hfree, LockType.held]
              · intro other hne
                simp [PerPart.get_set, hne]
              · simp [PerPart.get_set]
          | false => simp

theorem unlockPart_safe (users : Users) (lock : PerPart LockType) (part : Part)
    (rest : Multiset Lock) :
    (unlockPart users lock part).Safe lockDiscipline (fun _ held => held = rest)
      ((lock.get part).held (users.record part) + rest) := by
  unfold unlockPart
  cases lock.get part with
  | noLock => simp [LockType.held]
  | readLock => exact ⟨by simp [LockType.held], fun _ => by simp [LockType.held]⟩
  | writeLock => exact ⟨by simp [LockType.held], fun _ => by simp [LockType.held]⟩

/-- Releasing the four fields gives back exactly the locks they stand for. -/
theorem unlockParts_safe (users : Users) (lock : PerPart LockType) :
    (unlockParts users lock).Safe lockDiscipline (fun _ held => held = 0)
      (users.held lock) := by
  have hshape : users.held lock =
      (lock.get .user1Checking).held (users.record .user1Checking) +
        ((lock.get .user1Saving).held (users.record .user1Saving) +
          ((lock.get .user2Checking).held (users.record .user2Checking) +
            ((lock.get .user2Saving).held (users.record .user2Saving) + 0))) := by
    simp [Users.held, PerPart.get, add_assoc]
  rw [hshape]
  refine ((unlockPart_safe users lock .user1Checking _).mono ?_).bind
  rintro _ _ rfl
  refine ((unlockPart_safe users lock .user1Saving _).mono ?_).bind
  rintro _ _ rfl
  refine ((unlockPart_safe users lock .user2Checking _).mono ?_).bind
  rintro _ _ rfl
  exact unlockPart_safe users lock .user2Saving 0

/-- `get_lock_handler` grants all or nothing: an answer of success comes with
exactly the requested locks, an answer of failure with none. -/
theorem getLockHandler_safe (req : RpcMsgReq GetLockReq) :
    (getLockHandler req).Safe lockDiscipline
      (fun resp held => held = if resp.respControl.success then
        req.reqControl.toUsers.held req.reqControl.lock else 0) 0 := by
  unfold getLockHandler
  refine ((acquirePart_safe req.reqControl .user1Checking {} rfl).mono ?_).bind
  rintro first _ ⟨rfl, hkeep₁, htake₁⟩
  refine ((acquirePart_safe req.reqControl .user1Saving first ?_).mono ?_).bind
  · rw [hkeep₁ _ (by decide)]; rfl
  rintro second _ ⟨rfl, hkeep₂, htake₂⟩
  refine ((acquirePart_safe req.reqControl .user2Checking second ?_).mono ?_).bind
  · rw [hkeep₂ _ (by decide), hkeep₁ _ (by decide)]; rfl
  rintro third _ ⟨rfl, hkeep₃, htake₃⟩
  refine ((acquirePart_safe req.reqControl .user2Saving third ?_).mono ?_).bind
  · rw [hkeep₃ _ (by decide), hkeep₂ _ (by decide), hkeep₁ _ (by decide)]; rfl
  rintro last _ ⟨rfl, hkeep₄, htake₄⟩
  cases hfailed : last.lockFailed with
  | true =>
      refine ((unlockParts_safe req.reqControl.toUsers last.lock).mono ?_).bind
      rintro _ _ rfl
      simp
  | false =>
      -- No attempt failed, so each field holds what the request asked for.
      obtain ⟨hthird, hpart₄⟩ := htake₄ hfailed
      obtain ⟨hsecond, hpart₃⟩ := htake₃ hthird
      obtain ⟨hfirst, hpart₂⟩ := htake₂ hsecond
      obtain ⟨-, hpart₁⟩ := htake₁ hfirst
      have hlock : last.lock = req.reqControl.lock := by
        have h₁ : last.lock.get .user1Checking = req.reqControl.lock.get .user1Checking := by
          rw [hkeep₄ _ (by decide), hkeep₃ _ (by decide), hkeep₂ _ (by decide), hpart₁]
        have h₂ : last.lock.get .user1Saving = req.reqControl.lock.get .user1Saving := by
          rw [hkeep₄ _ (by decide), hkeep₃ _ (by decide), hpart₂]
        have h₃ : last.lock.get .user2Checking = req.reqControl.lock.get .user2Checking := by
          rw [hkeep₄ _ (by decide), hpart₃]
        cases hlast : last.lock
        cases hreq : req.reqControl.lock
        simp_all [PerPart.get]
      simp [hlock]

/-- `finish_handler` releases exactly the locks its unlock fields stand for. -/
theorem finishHandler_safe (req : RpcMsgReq FinishReq) :
    (finishHandler req).Safe lockDiscipline (fun _ held => held = 0)
      (req.reqControl.toUsers.held req.reqControl.unlock) := by
  have hstore : ∀ part held, (storePart req.reqControl part).Safe lockDiscipline
      (fun _ held' => held' = held) held := by
    intro part held
    unfold storePart
    split
    · exact ⟨trivial, fun _ => rfl⟩
    · rfl
  unfold finishHandler
  refine ((hstore .user1Checking _).mono ?_).bind
  rintro _ _ rfl
  refine ((hstore .user1Saving _).mono ?_).bind
  rintro _ _ rfl
  refine ((hstore .user2Checking _).mono ?_).bind
  rintro _ _ rfl
  refine ((hstore .user2Saving _).mono ?_).bind
  rintro _ _ rfl
  refine ((unlockParts_safe req.reqControl.toUsers req.reqControl.unlock).mono ?_).bind
  rintro _ _ rfl
  rfl

/-! ## Handlers as atomic steps -/

def ServerCall.KeepsBalance : ServerCall → Prop
  | .storeBalance _ _ => False
  | _ => True

theorem execute_balance (operation : ServerCall) (server : Server)
    (hkeeps : operation.KeepsBalance) :
    (execute operation server).2.balance = server.balance := by
  cases operation with
  | storeBalance record value => exact hkeeps.elim
  | _ => rfl

theorem acquirePart_keepsBalance (req : GetLockReq) (part : Part) (locals : LockLocals) :
    (acquirePart req part locals).Uses ServerCall.KeepsBalance := by
  unfold acquirePart
  split
  · cases req.lock.get part with
    | noLock => trivial
    | readLock =>
        refine Uses.bind ⟨trivial, fun _ => trivial⟩ ?_
        intro locked
        cases locked <;> trivial
    | writeLock =>
        refine Uses.bind ⟨trivial, fun _ => trivial⟩ ?_
        intro locked
        cases locked <;> trivial
  · trivial

theorem unlockParts_keepsBalance (users : Users) (lock : PerPart LockType) :
    (unlockParts users lock).Uses ServerCall.KeepsBalance := by
  have hpart : ∀ part, (unlockPart users lock part).Uses ServerCall.KeepsBalance := by
    intro part
    unfold unlockPart
    cases lock.get part with
    | noLock => trivial
    | readLock => exact ⟨trivial, fun _ => trivial⟩
    | writeLock => exact ⟨trivial, fun _ => trivial⟩
  exact (hpart _).bind fun _ => (hpart _).bind fun _ => (hpart _).bind fun _ => hpart _

theorem getLockHandler_run_balance (req : RpcMsgReq GetLockReq) (server : Server) :
    ((getLockHandler req).run execute server).2.balance = server.balance := by
  have huses : (getLockHandler req).Uses ServerCall.KeepsBalance := by
    refine (acquirePart_keepsBalance _ _ _).bind fun _ =>
      (acquirePart_keepsBalance _ _ _).bind fun _ =>
      (acquirePart_keepsBalance _ _ _).bind fun _ =>
      (acquirePart_keepsBalance _ _ _).bind fun locals => ?_
    cases locals.lockFailed with
    | true => exact (unlockParts_keepsBalance _ _).bind fun _ => trivial
    | false => trivial
  exact huses.run_eq execute_balance server

/-- As an atomic step, `get_lock_handler` adds the requested locks or nothing
to what is held. -/
theorem getLockHandler_run_matches (req : RpcMsgReq GetLockReq) {server : Server}
    {others : Multiset Lock} (hmatches : Matches server.mutex others) :
    Matches ((getLockHandler req).run execute server).2.mutex
      ((if ((getLockHandler req).run execute server).1.respControl.success then
        req.reqControl.toUsers.held req.reqControl.lock else 0) + others) := by
  obtain ⟨held, hheld, hnext⟩ := (getLockHandler_safe req).run
    (fun server held => Matches server.mutex (held + others))
    (fun operation server held => execute_matches others operation server held)
    (by simpa using hmatches)
  rw [← hheld]
  exact hnext

/-- As an atomic step, `finish_handler` gives back the locks it names. -/
theorem finishHandler_run_matches (req : RpcMsgReq FinishReq) {server : Server}
    {others : Multiset Lock}
    (hmatches : Matches server.mutex
      (req.reqControl.toUsers.held req.reqControl.unlock + others)) :
    Matches ((finishHandler req).run execute server).2.mutex others := by
  obtain ⟨held, hheld, hnext⟩ := (finishHandler_safe req).run
    (fun server held => Matches server.mutex (held + others))
    (fun operation server held => execute_matches others operation server held) hmatches
  rw [hheld, zero_add] at hnext
  exact hnext

/-- The attempt on this record would find its writer flag set. -/
def GetLockReq.blocked (req : GetLockReq) (mutexes : Mutexes) (part : Part) : Bool :=
  req.lock.get part != .noLock && (mutexes (req.record part)).writerLock

/-- One attempt fails exactly on a set writer flag, and touches no other record. -/
theorem acquirePart_run (req : GetLockReq) (part : Part) (locals : LockLocals)
    (server : Server) :
    ((acquirePart req part locals).run execute server).1.lockFailed =
        (locals.lockFailed || req.blocked server.mutex part) ∧
      ∀ record, (req.lock.get part ≠ .noLock → record ≠ req.record part) →
        ((acquirePart req part locals).run execute server).2.mutex record =
          server.mutex record := by
  unfold acquirePart GetLockReq.blocked
  cases hfailed : locals.lockFailed with
  | true => simp [hfailed]
  | false =>
      cases hlock : req.lock.get part with
      | noLock => simp [hfailed]
      | readLock =>
          cases hwriter : (server.mutex (req.record part)).writerLock <;>
            simp +contextual [perform, execute, SpinlockRwMutex.tryLockRead_fst, hwriter]
      | writeLock =>
          cases hwriter : (server.mutex (req.record part)).writerLock <;>
            simp +contextual [perform, execute, SpinlockRwMutex.tryLockWrite_fst, hwriter]

theorem GetLockReq.blocked_eq_false {req : GetLockReq} {mutexes : Mutexes} {part : Part} :
    req.blocked mutexes part = false ↔
      (req.lock.get part ≠ .noLock → (mutexes (req.record part)).writerLock = false) := by
  simp only [blocked, Bool.and_eq_false_imp, bne_iff_ne, ne_eq]

/-- An earlier attempt is on another record, so it does not change whether a
later one is blocked. -/
theorem blocked_acquirePart {req : GetLockReq} {part other : Part}
    (hdistinct : req.lock.get part ≠ .noLock → req.lock.get other ≠ .noLock →
      req.record part ≠ req.record other) (locals : LockLocals) (server : Server) :
    req.blocked ((acquirePart req part locals).run execute server).2.mutex other =
      req.blocked server.mutex other := by
  unfold GetLockReq.blocked
  by_cases hother : req.lock.get other = .noLock
  · simp [hother]
  · rw [(acquirePart_run req part locals server).2]
    exact fun hpart => (hdistinct hpart hother).symm

/-- A request for pairwise different records is granted exactly when the writer
flags of all of them are free. -/
theorem getLockHandler_run_success (req : RpcMsgReq GetLockReq) (server : Server)
    (hdistinct : ∀ part other, part ≠ other → req.reqControl.lock.get part ≠ .noLock →
      req.reqControl.lock.get other ≠ .noLock →
      req.reqControl.record part ≠ req.reqControl.record other) :
    ((getLockHandler req).run execute server).1.respControl.success = true ↔
      ∀ part, req.reqControl.lock.get part ≠ .noLock →
        (server.mutex (req.reqControl.record part)).writerLock = false := by
  have hsuccess : ((getLockHandler req).run execute server).1.respControl.success =
      !(req.reqControl.blocked server.mutex .user1Checking ||
        req.reqControl.blocked server.mutex .user1Saving ||
        req.reqControl.blocked server.mutex .user2Checking ||
        req.reqControl.blocked server.mutex .user2Saving) := by
    simp only [getLockHandler, run_bind, pure_eq_ret,
      (acquirePart_run req.reqControl _ _ _).1]
    rw [blocked_acquirePart (hdistinct .user2Checking .user2Saving (by decide)),
      blocked_acquirePart (hdistinct .user1Saving .user2Saving (by decide)),
      blocked_acquirePart (hdistinct .user1Checking .user2Saving (by decide)),
      blocked_acquirePart (hdistinct .user1Saving .user2Checking (by decide)),
      blocked_acquirePart (hdistinct .user1Checking .user2Checking (by decide)),
      blocked_acquirePart (hdistinct .user1Checking .user1Saving (by decide))]
    split <;> simp only [run_bind, run_ret, Bool.false_or]
  rw [hsuccess]
  simp only [Bool.not_eq_true', Bool.or_eq_false_iff, GetLockReq.blocked_eq_false]
  constructor
  · rintro ⟨⟨⟨h₁, h₂⟩, h₃⟩, h₄⟩ part
    cases part <;> assumption
  · intro hfree
    exact ⟨⟨⟨hfree _, hfree _⟩, hfree _⟩, hfree _⟩

/-- The balances in the response of `get_data_handler`. -/
def loadBalances (req : GetDataReq) (stale : PerPart ℚ) (balance : RecordId → ℚ) :
    PerPart ℚ where
  user1Checking := if req.get.user1Checking then balance (req.record .user1Checking)
    else stale.user1Checking
  user1Saving := if req.get.user1Saving then balance (req.record .user1Saving)
    else stale.user1Saving
  user2Checking := if req.get.user2Checking then balance (req.record .user2Checking)
    else stale.user2Checking
  user2Saving := if req.get.user2Saving then balance (req.record .user2Saving)
    else stale.user2Saving

theorem getDataHandler_run (req : RpcMsgReq GetDataReq) (stale : GetDataResp)
    (server : Server) :
    (getDataHandler req stale).run execute server =
      (⟨⟨req.reqCommon.type, req.reqCommon.reqNumber, 0⟩,
        ⟨loadBalances req.reqControl stale.balance server.balance⟩⟩, server) := by
  -- Which fields are asked for decides which calls are made.
  obtain ⟨common, users, get₁, get₂, get₃, get₄⟩ := req
  cases get₁ <;> cases get₂ <;> cases get₃ <;> cases get₄ <;> rfl

/-- The balances after `finish_handler`: later fields win when two of them
name one record. -/
def storeBalances (req : FinishReq) (balance : RecordId → ℚ) : RecordId → ℚ :=
  [.user1Checking, .user1Saving, .user2Checking, .user2Saving].foldl
    (fun balance part => if req.changed.get part then
      Function.update balance (req.record part) (req.balance.get part) else balance) balance

theorem finishHandler_run_balance (req : RpcMsgReq FinishReq) (server : Server) :
    ((finishHandler req).run execute server).2.balance =
      storeBalances req.reqControl server.balance := by
  have hpart : ∀ part server, ((storePart req.reqControl part).run execute server).2.balance =
      if req.reqControl.changed.get part then
        Function.update server.balance (req.reqControl.record part)
          (req.reqControl.balance.get part) else server.balance := by
    intro part server
    unfold storePart
    split <;> rfl
  have hunlock : ∀ server : Server, ((unlockParts req.reqControl.toUsers
      req.reqControl.unlock).run execute server).2.balance = server.balance :=
    (unlockParts_keepsBalance _ _).run_eq execute_balance
  simp only [finishHandler, run_bind, hunlock, hpart, pure_eq_ret, run_ret, storeBalances,
    List.foldl_cons, List.foldl_nil]

/-- When only write locks are released, `unlockParts` clears the writer flags of
the records that it names, and no other mutex changes. -/
theorem unlockParts_run_mutex {users : Users} {lock : PerPart LockType} {server : Server}
    {mutex : SpinlockRwMutex} {record : RecordId} (hmutex : server.mutex record = mutex)
    (hwrite : ∀ part, lock.get part ≠ .readLock) :
    ((∃ part, lock.get part = .writeLock ∧ users.record part = record) →
      ((unlockParts users lock).run execute server).2.mutex record = mutex.unlockWrite) ∧
    ((∀ part, lock.get part = .writeLock → users.record part ≠ record) →
      ((unlockParts users lock).run execute server).2.mutex record = mutex) := by
  have hpart : ∀ part server, ((unlockPart users lock part).run execute server).2.mutex record =
      if lock.get part = .writeLock ∧ users.record part = record then
        (server.mutex record).unlockWrite else server.mutex record := by
    intro part server
    unfold unlockPart
    cases hlock : lock.get part with
    | noLock => simp
    | readLock => exact (hwrite part hlock).elim
    | writeLock =>
        by_cases heq : users.record part = record
        · simp [perform, execute, heq]
        · simp [perform, execute, heq, Function.update_of_ne (Ne.symm heq)]
  have htwice : ∀ mutex : SpinlockRwMutex, mutex.unlockWrite.unlockWrite = mutex.unlockWrite :=
    fun _ => rfl
  simp only [unlockParts, run_bind, hpart, hmutex]
  constructor
  · rintro ⟨part, hreleased⟩
    cases part <;> simp only [hreleased, and_self, if_true] <;> split_ifs <;> simp only [htwice]
  · intro hkept
    have hnot : ∀ part, ¬ (lock.get part = .writeLock ∧ users.record part = record) :=
      fun part hreleased => hkept part hreleased.1 hreleased.2
    simp only [hnot, if_false]

theorem finishHandler_run_mutex {req : RpcMsgReq FinishReq}
    (hwrite : ∀ part, req.reqControl.unlock.get part ≠ .readLock) (server : Server)
    (record : RecordId) :
    ((∃ part, req.reqControl.unlock.get part = .writeLock ∧
        req.reqControl.record part = record) →
      ((finishHandler req).run execute server).2.mutex record =
        (server.mutex record).unlockWrite) ∧
    ((∀ part, req.reqControl.unlock.get part = .writeLock →
        req.reqControl.record part ≠ record) →
      ((finishHandler req).run execute server).2.mutex record = server.mutex record) := by
  have hstore : ∀ part server,
      ((storePart req.reqControl part).run execute server).2.mutex = server.mutex := by
    intro part server
    unfold storePart
    split <;> rfl
  simp only [finishHandler, run_bind, pure_eq_ret, run_ret]
  exact unlockParts_run_mutex (by simp only [hstore]) hwrite

/-- Only records flagged as changed can differ afterwards. -/
theorem storeBalances_of_unchanged (req : FinishReq) (balance : RecordId → ℚ)
    {record : RecordId}
    (hunchanged : ∀ part, req.changed.get part = true → req.record part ≠ record) :
    storeBalances req balance record = balance record := by
  rw [storeBalances, foldl_update_apply req.record (fun part => req.changed.get part = true)
    req.balance.get, lastWrite_eq_none]
  · rfl
  · exact fun part _ hchanged => hunchanged part hchanged

/-- Where the tables agree, they still agree after the same FINISH. -/
theorem storeBalances_eq_of_eq (req : FinishReq) {balance balance' : RecordId → ℚ}
    {record : RecordId} (heq : balance record = balance' record) :
    storeBalances req balance record = storeBalances req balance' record := by
  have hlast := foldl_update_apply req.record (fun part => req.changed.get part = true)
    req.balance.get [.user1Checking, .user1Saving, .user2Checking, .user2Saving]
  rw [storeBalances, storeBalances, hlast, hlast, heq]

/-- Only the values of changed records matter. -/
theorem storeBalances_congr {req req' : FinishReq} (husers : req.toUsers = req'.toUsers)
    (hchanged : req.changed = req'.changed)
    (hbalance : ∀ part, req.changed.get part = true →
      req.balance.get part = req'.balance.get part) :
    storeBalances req = storeBalances req' := by
  funext balance
  unfold storeBalances
  congr 1
  funext balance part
  rw [← husers, ← hchanged]
  split
  next hpart => rw [hbalance part hpart]
  next => rfl

end BenchBF3.SmallBank
