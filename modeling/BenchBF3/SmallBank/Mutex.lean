import Mathlib.Data.Multiset.Count
import Mathlib.Data.BitVec
import BenchBF3.SmallBank.Message

/-! # The reader/writer spinlock and the locks held on it

`SpinlockRwMutex` follows `spinlock_rw_mutex`; every operation is one atomic
step. A ledger of held locks says what a table of mutexes should hold, and
`Matches` says that it does: one lemma for each operation keeps the two in
agreement, whatever else the ledger contains.
-/

namespace BenchBF3.SmallBank

/-- `readers_count` is an `std::atomic<int>`, whose arithmetic wraps. -/
structure SpinlockRwMutex where
  readersCount : BitVec 32 := 0
  writerLock : Bool := false
  deriving DecidableEq, Repr

namespace SpinlockRwMutex

def tryLockRead (mutex : SpinlockRwMutex) : Bool × SpinlockRwMutex :=
  if !mutex.writerLock then
    (true, { mutex with readersCount := mutex.readersCount + 1 })
  else (false, mutex)

def unlockRead (mutex : SpinlockRwMutex) : SpinlockRwMutex :=
  { mutex with readersCount := mutex.readersCount - 1 }

/-- The strong compare-and-exchange of `writer_lock` from `false` to `true`;
`readers_count` plays no part in it. -/
def tryLockWrite (mutex : SpinlockRwMutex) : Bool × SpinlockRwMutex :=
  if mutex.writerLock = false then (true, { mutex with writerLock := true })
  else (false, mutex)

def unlockWrite (mutex : SpinlockRwMutex) : SpinlockRwMutex :=
  { mutex with writerLock := false }

theorem tryLockRead_fst (mutex : SpinlockRwMutex) :
    mutex.tryLockRead.1 = !mutex.writerLock := by
  unfold tryLockRead
  cases mutex.writerLock <;> rfl

theorem tryLockWrite_fst (mutex : SpinlockRwMutex) :
    mutex.tryLockWrite.1 = !mutex.writerLock := by
  unfold tryLockWrite
  cases mutex.writerLock <;> rfl

end SpinlockRwMutex

inductive Access
  | read
  | write
  deriving DecidableEq, Repr

/-- One lock that somebody holds. -/
abbrev Lock := RecordId × Access

/-- The mutexes of both tables. -/
abbrev Mutexes := RecordId → SpinlockRwMutex

/-- The mutexes hold exactly the locks of the ledger: the reader count is the
number of read locks in the arithmetic of `int`, and there is at most one
write lock, shown by the writer flag. -/
structure Matches (mutexes : Mutexes) (held : Multiset Lock) : Prop where
  readers : ∀ record, (mutexes record).readersCount =
    BitVec.ofNat 32 (held.count (record, .read))
  writers : ∀ record, held.count (record, .write) ≤ 1
  writerLock : ∀ record, (mutexes record).writerLock = true ↔
    held.count (record, .write) = 1

namespace Matches

variable {mutexes : Mutexes} {held : Multiset Lock}

theorem initial : Matches (fun _ => {}) 0 where
  readers := by simp
  writers := by simp
  writerLock := by simp

/-- A write lock in the ledger shows in the writer flag. -/
theorem writerLock_of_mem (hmatches : Matches mutexes held) {record : RecordId}
    (hmem : (record, Access.write) ∈ held) : (mutexes record).writerLock = true := by
  have hpos := Multiset.one_le_count_iff_mem.mpr hmem
  exact (hmatches.writerLock record).mpr (le_antisymm (hmatches.writers record) hpos)

/-- The mutexes after one of them has been replaced. -/
theorem update {record : RecordId} {mutex : SpinlockRwMutex} {held' : Multiset Lock}
    (hmatches : Matches mutexes held)
    (hother : ∀ other, other ≠ record → ∀ access,
      held'.count (other, access) = held.count (other, access))
    (hreaders : mutex.readersCount = BitVec.ofNat 32 (held'.count (record, .read)))
    (hwriters : held'.count (record, .write) ≤ 1)
    (hwriterLock : mutex.writerLock = true ↔ held'.count (record, .write) = 1) :
    Matches (Function.update mutexes record mutex) held' where
  readers other := by
    by_cases heq : other = record
    · subst other
      simpa using hreaders
    · rw [Function.update_of_ne heq, hother other heq, hmatches.readers]
  writers other := by
    by_cases heq : other = record
    · subst other
      exact hwriters
    · rw [hother other heq]
      exact hmatches.writers other
  writerLock other := by
    by_cases heq : other = record
    · subst other
      simpa using hwriterLock
    · rw [Function.update_of_ne heq, hother other heq]
      exact hmatches.writerLock other

theorem tryLockRead (hmatches : Matches mutexes held) (record : RecordId) :
    Matches (Function.update mutexes record (mutexes record).tryLockRead.2)
      (if (mutexes record).tryLockRead.1 then (record, .read) ::ₘ held else held) := by
  unfold SpinlockRwMutex.tryLockRead
  cases hwriter : (mutexes record).writerLock with
  | true => simpa using hmatches
  | false =>
      refine hmatches.update ?_ ?_ ?_ ?_
      · intro other hne access
        simp [hne]
      · simp [hmatches.readers, BitVec.ofNat_add]
      · simpa using hmatches.writers record
      · have hcount := hmatches.writerLock record
        rw [hwriter] at hcount
        simpa [hwriter] using hcount

theorem tryLockWrite (hmatches : Matches mutexes held) (record : RecordId) :
    Matches (Function.update mutexes record (mutexes record).tryLockWrite.2)
      (if (mutexes record).tryLockWrite.1 then (record, .write) ::ₘ held else held) := by
  unfold SpinlockRwMutex.tryLockWrite
  cases hwriter : (mutexes record).writerLock with
  | true => simpa using hmatches
  | false =>
      have hcount : held.count (record, .write) = 0 := by
        have hnot := (hmatches.writerLock record).not.mp (by simp [hwriter])
        have hle := hmatches.writers record
        omega
      refine hmatches.update ?_ ?_ ?_ ?_
      · intro other hne access
        simp [hne]
      · simp [hmatches.readers]
      · simp [hcount]
      · simp [hcount]

theorem unlockRead (hmatches : Matches mutexes held) {record : RecordId}
    (hmem : (record, Access.read) ∈ held) :
    Matches (Function.update mutexes record (mutexes record).unlockRead)
      (held.erase (record, .read)) := by
  have hpos := Multiset.one_le_count_iff_mem.mpr hmem
  refine hmatches.update ?_ ?_ ?_ ?_
  · intro other hne access
    rw [Multiset.count_erase_of_ne (by simp [hne])]
  · have hsucc : held.count (record, .read) = held.count (record, .read) - 1 + 1 := by omega
    rw [SpinlockRwMutex.unlockRead, Multiset.count_erase_self, hmatches.readers, hsucc,
      BitVec.ofNat_add]
    simp
  · rw [Multiset.count_erase_of_ne (by simp)]
    exact hmatches.writers record
  · rw [Multiset.count_erase_of_ne (by simp)]
    exact hmatches.writerLock record

theorem unlockWrite (hmatches : Matches mutexes held) {record : RecordId}
    (hmem : (record, Access.write) ∈ held) :
    Matches (Function.update mutexes record (mutexes record).unlockWrite)
      (held.erase (record, .write)) := by
  have hpos := Multiset.one_le_count_iff_mem.mpr hmem
  have hle := hmatches.writers record
  refine hmatches.update ?_ ?_ ?_ ?_
  · intro other hne access
    rw [Multiset.count_erase_of_ne (by simp [hne])]
  · rw [Multiset.count_erase_of_ne (by simp)]
    exact hmatches.readers record
  · rw [Multiset.count_erase_self]
    omega
  · rw [Multiset.count_erase_self]
    constructor
    · intro hfalse
      simp [SpinlockRwMutex.unlockWrite] at hfalse
    · omega

end Matches

end BenchBF3.SmallBank
