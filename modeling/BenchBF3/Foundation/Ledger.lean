import Mathlib.Data.List.Perm.Lattice
import Mathlib.Data.List.Range

/-! # Objects that are created and deleted

Objects are numbered in the order of their creation, and their deletions are
recorded. When the deleted objects and those in use are together exactly the
created ones, none is deleted twice, none in use is deleted, and once nothing is in
use every object has been deleted exactly once.
-/

namespace BenchBF3.Foundation

structure Ledger where
  created : Nat
  deleted : List Nat
  deriving DecidableEq, Repr

namespace Ledger

def empty : Ledger := ⟨0, []⟩

/-- Some more objects, which get the next numbers. -/
def create (ledger : Ledger) (count : Nat) : Ledger :=
  { ledger with created := ledger.created + count }

def delete (ledger : Ledger) (objects : List Nat) : Ledger :=
  { ledger with deleted := ledger.deleted ++ objects }

/-- The objects that are not deleted are those in use. -/
def Owns (ledger : Ledger) (used : List Nat) : Prop :=
  (ledger.deleted ++ used).Perm (List.range ledger.created)

namespace Owns

variable {ledger : Ledger} {used : List Nat}

theorem nil : empty.Owns [] := .refl _

theorem perm (howns : ledger.Owns used) {used' : List Nat} (hperm : used'.Perm used) :
    ledger.Owns used' :=
  (hperm.append_left ledger.deleted).trans howns

theorem create (howns : ledger.Owns used) (count : Nat) :
    (ledger.create count).Owns (used ++ List.range' ledger.created count) := by
  unfold Owns at howns ⊢
  rw [← List.append_assoc]
  change (ledger.deleted ++ used ++ _).Perm (List.range (ledger.created + count))
  rw [List.range_add, ← List.range'_eq_map_range]
  exact howns.append_right _

theorem delete {objects : List Nat} (howns : ledger.Owns (objects ++ used)) :
    (ledger.delete objects).Owns used := by
  unfold Owns at howns ⊢
  change (ledger.deleted ++ objects ++ used).Perm _
  rwa [List.append_assoc]

theorem nodup (howns : ledger.Owns used) : (ledger.deleted ++ used).Nodup :=
  howns.nodup_iff.mpr List.nodup_range

theorem deleted_nodup (howns : ledger.Owns used) : ledger.deleted.Nodup :=
  howns.nodup.of_append_left

/-- An object is deleted when it was created and is no longer in use. -/
theorem mem_deleted_iff (howns : ledger.Owns used) (object : Nat) :
    object ∈ ledger.deleted ↔ object < ledger.created ∧ object ∉ used := by
  have hmem := howns.mem_iff (a := object)
  rw [List.mem_append, List.mem_range] at hmem
  constructor
  · intro hdeleted
    exact ⟨hmem.mp (.inl hdeleted), List.disjoint_of_nodup_append howns.nodup hdeleted⟩
  · rintro ⟨hcreated, hunused⟩
    exact (hmem.mpr hcreated).resolve_right hunused

/-- When nothing is in use, every object was deleted exactly once. -/
theorem count_deleted (howns : ledger.Owns []) {object : Nat} (hcreated : object < ledger.created) :
    ledger.deleted.count object = 1 :=
  List.count_eq_one_of_mem howns.deleted_nodup
    ((howns.mem_deleted_iff object).mpr ⟨hcreated, List.not_mem_nil⟩)

end Owns

end Ledger

end BenchBF3.Foundation
