import Mathlib.Data.List.Perm.Basic
import Mathlib.Data.Multiset.AddSub
import Mathlib.Order.Defs.Unbundled

/-! # Priority queues and merging

A priority queue is known by the elements it holds: which of several first elements it
answers is left open. Merging lists takes a first element off some list, as long as
there is one; the outcome is a permutation of all elements, and sorted when the lists
are.
-/

namespace BenchBF3.Foundation

/-- What is documented of a priority queue whose first elements are those that are
greater than no other. -/
structure PriorityQueue (α : Type*) (greater : α → α → Bool) where
  Queue : Type*
  elements : Queue → Multiset α
  empty : Queue
  push : Queue → α → Queue
  top : Queue → Option α
  pop : Queue → Queue
  elements_empty : elements empty = 0
  elements_push : ∀ queue value, elements (push queue value) = value ::ₘ elements queue
  top_eq_none : ∀ queue, top queue = none → elements queue = 0
  elements_top : ∀ queue value, top queue = some value →
    elements queue = value ::ₘ elements (pop queue)
  top_first : ∀ queue value, top queue = some value → ∀ other ∈ elements queue,
    greater value other = false

section Merges

variable {α : Type*}

/-- The first elements of the lists that have one. -/
def heads (lists : List (List α)) : List α := lists.filterMap List.head?

/-- The second list is a merge of the first ones: at each step some list's head is
taken that no other head goes before. -/
inductive Merges (le : α → α → Prop) : List (List α) → List α → Prop
  | done {lists : List (List α)} (hempty : ∀ list ∈ lists, list = []) : Merges le lists []
  | take {before after : List (List α)} {value : α} {tail merged : List α}
      (hfirst : ∀ head ∈ heads (before ++ (value :: tail) :: after), le value head)
      (hrest : Merges le (before ++ tail :: after) merged) :
      Merges le (before ++ (value :: tail) :: after) (value :: merged)

variable {le : α → α → Prop} {lists : List (List α)} {merged : List α}

theorem heads_cons (value : α) (tail : List α) (lists : List (List α)) :
    heads ((value :: tail) :: lists) = value :: heads lists := rfl

theorem heads_append_cons (before after : List (List α)) (list : List α) :
    heads (before ++ list :: after) = heads before ++ (list.head?.toList ++ heads after) := by
  cases list <;> simp [heads, List.filterMap_cons]

theorem heads_eq_nil_iff : heads lists = [] ↔ ∀ list ∈ lists, list = [] := by
  simp [heads, List.filterMap_eq_nil_iff]

theorem Merges.perm (hmerges : Merges le lists merged) : merged.Perm lists.flatten := by
  induction hmerges with
  | done hempty =>
      rw [List.flatten_eq_nil_iff.mpr hempty]
  | take _ _ ih =>
      simp only [List.flatten_append, List.flatten_cons, List.cons_append] at ih ⊢
      exact (ih.cons _).trans List.perm_middle.symm

/-- A head that goes before all heads goes before every element of sorted lists. -/
theorem le_of_le_heads [IsTrans α le] (hsorted : ∀ list ∈ lists, list.Pairwise le) {value : α}
    (hfirst : ∀ head ∈ heads lists, le value head) :
    ∀ other ∈ lists.flatten, le value other := by
  intro other hother
  obtain ⟨list, hlist, hmem⟩ := List.mem_flatten.mp hother
  cases list with
  | nil => exact absurd hmem List.not_mem_nil
  | cons head tail =>
      have hhead : le value head := hfirst head (List.mem_filterMap.mpr ⟨_, hlist, rfl⟩)
      rcases List.mem_cons.mp hmem with rfl | htail
      · exact hhead
      · exact IsTrans.trans _ _ _ hhead (List.rel_of_pairwise_cons (hsorted _ hlist) htail)

theorem Merges.sorted [IsTrans α le] (hmerges : Merges le lists merged)
    (hsorted : ∀ list ∈ lists, list.Pairwise le) : merged.Pairwise le := by
  induction hmerges with
  | done _ => exact .nil
  | @take before after value tail merged hfirst hrest ih =>
      have hlist := hsorted (value :: tail) (by simp)
      have hrestSorted : ∀ list ∈ before ++ tail :: after, list.Pairwise le := by
        intro list hmem
        rcases List.mem_append.mp hmem with hbefore | hafter
        · exact hsorted list (List.mem_append_left _ hbefore)
        · rcases List.mem_cons.mp hafter with rfl | hafter
          · exact hlist.of_cons
          · exact hsorted list (List.mem_append_right _ (List.mem_cons_of_mem _ hafter))
      refine List.pairwise_cons.mpr ⟨?_, ih hrestSorted⟩
      intro other hother
      have hall := le_of_le_heads hsorted hfirst other
      rw [hrest.perm.mem_iff] at hother
      apply hall
      simp only [List.flatten_append, List.flatten_cons, List.mem_append, List.mem_cons] at hother ⊢
      grind

end Merges

end BenchBF3.Foundation
