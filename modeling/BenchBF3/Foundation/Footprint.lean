import Mathlib.Data.List.Induction
import Mathlib.Data.List.Perm.Basic
import Mathlib.Data.Set.Lattice
import Mathlib.Order.CompletePartialOrder

/-! # Updates of a store and their footprints

An update of a store is local to a set of keys when it changes nothing outside
the set and what it does inside depends only on what is inside. Updates that
are local to disjoint sets commute, so a sequence of them has one result,
whatever their order. Writes to keys that may coincide do not commute: each key
ends with the last value written to it.
-/

namespace BenchBF3.Foundation

variable {Key Value : Type*}

/-- The update reads and writes only the keys of its footprint. -/
structure LocalOn (footprint : Set Key) (update : (Key → Value) → Key → Value) : Prop where
  frame : ∀ store key, key ∉ footprint → update store key = store key
  depends : ∀ store store', (∀ key ∈ footprint, store key = store' key) →
    ∀ key ∈ footprint, update store key = update store' key

variable {left right : Set Key} {update update' : (Key → Value) → Key → Value}

/-- Inside its own footprint an update does not see the other one. -/
theorem LocalOn.apply_of_mem (hupdate : LocalOn left update) (hupdate' : LocalOn right update')
    (hdisjoint : Disjoint left right) (store : Key → Value) {key : Key} (hkey : key ∈ left) :
    update (update' store) key = update store key := by
  apply hupdate.depends _ _ _ key hkey
  intro other hother
  exact hupdate'.frame store other (Set.disjoint_left.mp hdisjoint hother)

theorem LocalOn.comm (hupdate : LocalOn left update) (hupdate' : LocalOn right update')
    (hdisjoint : Disjoint left right) (store : Key → Value) :
    update (update' store) = update' (update store) := by
  funext key
  -- At most one of the two updates reaches the key.
  by_cases hleft : key ∈ left
  · rw [hupdate.apply_of_mem hupdate' hdisjoint store hleft,
      hupdate'.frame _ _ (Set.disjoint_left.mp hdisjoint hleft)]
  · by_cases hright : key ∈ right
    · rw [hupdate.frame _ _ hleft, hupdate'.apply_of_mem hupdate hdisjoint.symm store hright]
    · rw [hupdate.frame _ _ hleft, hupdate'.frame _ _ hright, hupdate'.frame _ _ hright,
        hupdate.frame _ _ hleft]

/-- A family of updates with pairwise disjoint footprints may run in any order. -/
theorem LocalOn.foldl_perm {Index : Type*} {footprint : Index → Set Key}
    {updates : Index → (Key → Value) → Key → Value}
    (hlocal : ∀ index, LocalOn (footprint index) (updates index))
    (hdisjoint : Pairwise fun index other => Disjoint (footprint index) (footprint other))
    {order order' : List Index} (hperm : order.Perm order') (store : Key → Value) :
    order.foldl (fun store index => updates index store) store =
      order'.foldl (fun store index => updates index store) store := by
  apply hperm.foldl_eq'
  intro index _ other _ store
  by_cases heq : index = other
  · rw [heq]
  · exact (hlocal other).comm (hlocal index) (hdisjoint (Ne.symm heq)) store

section Writes

variable {Index : Type*} [DecidableEq Key] (key : Index → Key) (written : Index → Prop)
  [DecidablePred written]

/-- The last of the writes that are made to a key. -/
def lastWrite (order : List Index) (target : Key) : Option Index :=
  order.reverse.find? fun index => decide (written index ∧ key index = target)

theorem lastWrite_concat (order : List Index) (last : Index) (target : Key) :
    lastWrite key written (order ++ [last]) target =
      if written last ∧ key last = target then some last
      else lastWrite key written order target := by
  rw [lastWrite, List.reverse_append, List.reverse_singleton, List.singleton_append]
  split
  next hlast => rw [List.find?_cons_of_pos (by simpa using hlast)]
  next hnot => rw [List.find?_cons_of_neg (by simpa using hnot), lastWrite]

/-- After conditional writes one after another, a key has the value of the last
write to it, and its old value if there is none. -/
theorem foldl_update_apply (value : Index → Value) (order : List Index) (store : Key → Value)
    (target : Key) :
    order.foldl (fun store index => if written index then
      Function.update store (key index) (value index) else store) store target =
      (lastWrite key written order target).elim (store target) value := by
  -- Induction from the end: the last write decides.
  induction order using List.reverseRecOn with
  | nil => rfl
  | append_singleton rest last ih =>
      rw [List.foldl_append, List.foldl_cons, List.foldl_nil, lastWrite_concat]
      by_cases hwritten : written last
      · by_cases htarget : key last = target
        · simp [hwritten, htarget]
        · rw [if_pos hwritten, Function.update_of_ne (Ne.symm htarget), ih,
            if_neg fun hlast => htarget hlast.2]
      · rw [if_neg hwritten, ih, if_neg fun hlast => hwritten hlast.1]

theorem lastWrite_eq_none {order : List Index} {target : Key}
    (hnone : ∀ index ∈ order, written index → key index ≠ target) :
    lastWrite key written order target = none := by
  rw [lastWrite, List.find?_eq_none]
  intro index hmem
  simpa using hnone index (List.mem_reverse.mp hmem)

end Writes

end BenchBF3.Foundation
