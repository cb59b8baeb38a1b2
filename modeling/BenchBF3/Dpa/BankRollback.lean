import BenchBF3.Dpa.BankServer

/-! # What a refused GET_LOCK of the DPA server leaves behind

A request is all or nothing when it either takes all its records or leaves
every mutex as it was. The server keeps in one word both the result of the
latest attempt and, as bits, what it has taken. After a failed attempt the word
is the busy value alone, so the rollback is right exactly when the bits of that
value happen to name what was taken, and nothing that was held before.
-/

namespace BenchBF3.Dpa

open SmallBank (Part PerPart Users RecordId Table)

/-- What a request should do: it succeeds when its records are different and
free, and then holds exactly those in addition; otherwise no mutex changes. -/
structure AllOrNothing (req : LockFlags) (success : Bool) (before after : Mutexes) : Prop where
  success_iff : success = true ↔ req.Grantable before
  granted : success = true → ∀ record,
    after record = true ↔ before record = true ∨ record ∈ req.requested
  refused : success = false → after = before

/-- The bits of the busy value name every record that is taken before the failed
attempt, and no record that is held. -/
def RollsBack (req : LockFlags) (busy : BitVec 32) (mutex : Mutexes) : Prop :=
  (∀ record ∈ req.taken mutex, Names req.toUsers busy record) ∧
    ∀ record, mutex record = true → ¬ Names req.toUsers busy record

/-- Only free records are taken. -/
theorem LockFlags.free_of_mem_takenAmong {req : LockFlags} {mutex : Mutexes} {rest : List Part}
    {record : RecordId} (hmem : record ∈ req.takenAmong mutex rest) : mutex record = false := by
  induction rest generalizing mutex with
  | nil => cases hmem
  | cons part rest ih =>
      rw [takenAmong] at hmem
      split at hmem
      next => exact ih hmem
      next =>
        split at hmem
        next => cases hmem
        next hfree =>
          rcases List.mem_cons.mp hmem with rfl | hrest
          · exact Bool.eq_false_of_not_eq_true hfree
          · have hlater := ih hrest
            rw [Function.update_apply] at hlater
            split at hlater
            next => cases hlater
            next => exact hlater

section GetLock

variable (req : GetLockReq) {busy : BitVec 32} (hbusy : busy ≠ 0#32) (tables : Tables)

include hbusy

theorem getLock_mutex_eq_iff (hrefused : ¬ req.toLockFlags.Grantable tables.mutex) :
    (getLock req busy tables).2.mutex = tables.mutex ↔
      RollsBack req.toLockFlags busy tables.mutex := by
  have hmutex := getLock_mutex_of_refused req hbusy tables hrefused
  constructor
  · intro hsame
    rw [hsame] at hmutex
    refine ⟨?_, fun record hheld => ((hmutex record).mp hheld).2⟩
    intro record htaken
    -- A taken record that is not named stays held, but it was free before.
    by_contra hnot
    have hheld := (hmutex record).mpr ⟨.inr htaken, hnot⟩
    rw [LockFlags.free_of_mem_takenAmong htaken] at hheld
    cases hheld
  · rintro ⟨htaken, hheld⟩
    funext record
    rw [Bool.eq_iff_iff, hmutex record]
    constructor
    · rintro ⟨hbefore | hnew, hnot⟩
      · exact hbefore
      · exact (hnot (htaken record hnew)).elim
    · exact fun hbefore => ⟨.inl hbefore, hheld record hbefore⟩

/-- For every state of the mutexes, every request and every busy value: the
request is all or nothing exactly when it is granted, or the busy value happens
to stand for the rollback. -/
theorem getLock_allOrNothing_iff :
    AllOrNothing req.toLockFlags (getLock req busy tables).1.success tables.mutex
        (getLock req busy tables).2.mutex ↔
      req.toLockFlags.Grantable tables.mutex ∨ RollsBack req.toLockFlags busy tables.mutex := by
  have hsuccess := getLock_success req hbusy tables
  by_cases hgrantable : req.toLockFlags.Grantable tables.mutex
  · refine iff_of_true ⟨hsuccess, ?_, ?_⟩ (.inl hgrantable)
    · exact fun _ record => getLock_mutex_of_grantable req hbusy tables hgrantable record
    · intro hfailed
      rw [hsuccess.mpr hgrantable] at hfailed
      cases hfailed
  · rw [or_iff_right hgrantable, ← getLock_mutex_eq_iff req hbusy tables hgrantable]
    have hfailed := Bool.eq_false_of_not_eq_true (hsuccess.not.mpr hgrantable)
    constructor
    · exact fun hall => hall.refused hfailed
    · intro hsame
      refine ⟨hsuccess, ?_, fun _ => hsame⟩
      intro hgranted
      exact (hgrantable (hsuccess.mp hgranted)).elim

end GetLock

/-- A check drawn on account 5: its checking record for writing, and its savings
record for reading. -/
def writeCheckFive : GetLockReq where
  user1Id := 5
  user2Id := 0
  lock := ⟨2, 1, 0, 0⟩
  reqNumber := 0

/-- Only the given record is held. -/
def heldOnly (held : RecordId) : Tables := ⟨fun _ => 0, fun record => decide (record = held)⟩

/-- The first record is taken and the second one is held: the busy value 1 names
the first one. -/
theorem getLock_allOrNothing_writeCheckFive :
    (getLock writeCheckFive 1 (heldOnly ⟨.savings, 5⟩)).1.success = false ∧
      AllOrNothing writeCheckFive.toLockFlags
        (getLock writeCheckFive 1 (heldOnly ⟨.savings, 5⟩)).1.success
        (heldOnly ⟨.savings, 5⟩).mutex
        (getLock writeCheckFive 1 (heldOnly ⟨.savings, 5⟩)).2.mutex := by
  refine ⟨by decide, (getLock_allOrNothing_iff writeCheckFive (by decide) _).mpr (.inr ⟨?_, ?_⟩)⟩
  · intro record hmem
    have hrecord : record = ⟨.checking, 5⟩ := by
      rw [show writeCheckFive.toLockFlags.taken (heldOnly ⟨.savings, 5⟩).mutex =
        [⟨.checking, 5⟩] by decide] at hmem
      exact List.mem_singleton.mp hmem
    exact ⟨.user1Checking, by decide, hrecord.symm⟩
  · rintro record hheld ⟨part, hbit, rfl⟩
    cases part with
    | user1Checking => exact absurd hheld (by decide)
    | user1Saving | user2Checking | user2Saving => exact hbit (by decide)

/-- The record is held by another transaction: the refused request frees it. -/
theorem getLock_not_allOrNothing :
    (getLock depositFive 1 (heldOnly ⟨.checking, 5⟩)).1.success = false ∧
      (heldOnly ⟨.checking, 5⟩).mutex ⟨.checking, 5⟩ = true ∧
      (getLock depositFive 1 (heldOnly ⟨.checking, 5⟩)).2.mutex ⟨.checking, 5⟩ = false ∧
      ¬ AllOrNothing depositFive.toLockFlags
        (getLock depositFive 1 (heldOnly ⟨.checking, 5⟩)).1.success
        (heldOnly ⟨.checking, 5⟩).mutex
        (getLock depositFive 1 (heldOnly ⟨.checking, 5⟩)).2.mutex := by
  refine ⟨by decide, by decide, by decide, ?_⟩
  intro hall
  have hsame := congrFun (hall.refused (by decide)) ⟨.checking, 5⟩
  exact absurd hsame (by decide)

end BenchBF3.Dpa
