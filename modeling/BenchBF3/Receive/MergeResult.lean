import BenchBF3.Foundation.Merge

/-! # Merging the timestamps of all queues

`MergeResult` merges the arrays of the receive queues through a priority queue that
holds the next element of each array. Which array an element came from is not kept: it
is found again as the first array whose next element is equal. The queue still always
holds exactly the next elements, since one of several equal ones is as good as another.
Every access to an array is checked here, so that one that is out of range shows.
-/

namespace BenchBF3.Receive

open Foundation

structure TimestampsAccNumber where
  timestamp : BitVec 64
  accNumber : BitVec 32
  deriving DecidableEq, Repr

/-- The operator that `std::greater` calls. -/
def TimestampsAccNumber.greater (first second : TimestampsAccNumber) : Bool :=
  first.timestamp > second.timestamp

inductive MergeError
  | outOfRange
  | outOfFuel
  deriving DecidableEq, Repr

/-- A checked `operator[]`. -/
def access {α : Type*} (array : List α) (index : Nat) : Except MergeError α :=
  match array[index]? with
  | some value => .ok value
  | none => .error .outOfRange

abbrev TimestampQueue := PriorityQueue TimestampsAccNumber TimestampsAccNumber.greater

section Code

variable (pq : TimestampQueue) (arrs : List (List TimestampsAccNumber))

/-- The first element of each array is pushed, whether it has one or not. -/
def pushFirsts : List Nat → pq.Queue → Except MergeError pq.Queue
  | [], queue => .ok queue
  | i :: rest, queue => do
      let arr ← access arrs i
      let first ← access arr 0
      pushFirsts rest (pq.push queue first)

/-- The search for an array whose next element equals the top; 0 if there is none. -/
def findArray (arrPos : List Nat) (top : TimestampsAccNumber) : List Nat → Except MergeError Nat
  | [] => .ok 0
  | i :: rest => do
      let pos ← access arrPos i
      let arr ← access arrs i
      if pos < arr.length then
        let head ← access arr pos
        if head = top then .ok i else findArray arrPos top rest
      else findArray arrPos top rest

/-- The loop while the queue is not empty. -/
def mergeLoop : Nat → pq.Queue → List Nat → List TimestampsAccNumber →
    Except MergeError (List TimestampsAccNumber)
  | 0, _, _, _ => .error .outOfFuel
  | fuel + 1, queue, arrPos, res =>
      match pq.top queue with
      | none => .ok res
      | some top => do
          let arrIndex ← findArray arrs arrPos top (List.range arrs.length)
          let pos ← access arrPos arrIndex
          let arr ← access arrs arrIndex
          if pos + 1 < arr.length then
            let next ← access arr (pos + 1)
            mergeLoop fuel (pq.push (pq.pop queue) next) (arrPos.set arrIndex (pos + 1))
              (res ++ [top])
          else mergeLoop fuel (pq.pop queue) (arrPos.set arrIndex (pos + 1)) (res ++ [top])

def mergeResult (fuel : Nat) : Except MergeError (List TimestampsAccNumber) :=
  if arrs.length = 1 then access arrs 0
  else do
    let queue ← pushFirsts pq arrs (List.range arrs.length) pq.empty
    mergeLoop pq arrs fuel queue (List.replicate arrs.length 0) []

end Code

/-! ## The first elements -/

section Firsts

variable {pq : TimestampQueue} {arrs : List (List TimestampsAccNumber)}

theorem access_eq_ok {α : Type*} {array : List α} {index : Nat} {value : α}
    (hvalue : array[index]? = some value) : access array index = .ok value := by
  rw [access, hvalue]

theorem ok_bind {α β : Type} (value : α) (next : α → Except MergeError β) :
    (.ok value >>= next) = next value := rfl

/-- Arrays that all have an element are all represented in the queue. -/
theorem pushFirsts_of_nonempty {done rest : List (List TimestampsAccNumber)}
    (harrs : arrs = done ++ rest) (hnonempty : ∀ arr ∈ rest, arr ≠ []) (queue : pq.Queue) :
    ∃ queue', pushFirsts pq arrs (List.range' done.length rest.length) queue = .ok queue' ∧
      pq.elements queue' = pq.elements queue + heads rest := by
  induction rest generalizing done queue with
  | nil => exact ⟨queue, rfl, by simp [heads]⟩
  | cons arr rest ih =>
      obtain ⟨first, tail, rfl⟩ := List.exists_cons_of_ne_nil (hnonempty arr List.mem_cons_self)
      have harr : arrs[done.length]? = some (first :: tail) := by simp [harrs]
      obtain ⟨queue', hpush, helements⟩ := @ih (done ++ [first :: tail])
        (by simp [harrs]) (fun arr harr => hnonempty arr (List.mem_cons_of_mem _ harr))
        (pq.push queue first)
      rw [List.length_append, List.length_singleton] at hpush
      refine ⟨queue', ?_, ?_⟩
      · rw [List.length_cons, List.range'_succ, pushFirsts, access_eq_ok harr]
        exact hpush
      · rw [helements, pq.elements_push, Multiset.cons_add, heads_cons, ← Multiset.cons_coe,
          Multiset.add_cons]

/-- An empty array is accessed out of range. -/
theorem pushFirsts_of_empty {done rest : List (List TimestampsAccNumber)}
    (harrs : arrs = done ++ rest) (hempty : [] ∈ rest) (queue : pq.Queue) :
    pushFirsts pq arrs (List.range' done.length rest.length) queue = .error .outOfRange := by
  induction rest generalizing done queue with
  | nil => exact absurd hempty List.not_mem_nil
  | cons arr rest ih =>
      have harr : arrs[done.length]? = some arr := by simp [harrs]
      rw [List.length_cons, List.range'_succ, pushFirsts, access_eq_ok harr]
      cases arr with
      | nil => rfl
      | cons first tail =>
          have hrest : [] ∈ rest := by simpa using hempty
          have hpush := @ih (done ++ [first :: tail]) (by simp [harrs]) hrest
            (pq.push queue first)
          rw [List.length_append, List.length_singleton] at hpush
          exact hpush

end Firsts

/-! ## The loop -/

/-- What is left of each array behind its position. -/
def rests (arrs : List (List TimestampsAccNumber)) (arrPos : List Nat) :
    List (List TimestampsAccNumber) :=
  List.zipWith List.drop arrPos arrs

section Loop

variable {pq : TimestampQueue} {arrs : List (List TimestampsAccNumber)} {arrPos : List Nat}
  {top : TimestampsAccNumber}

/-- A position whose rest is not empty. -/
theorem getElem?_rests {index : Nat} {rest : List TimestampsAccNumber}
    (hrest : (rests arrs arrPos)[index]? = some rest) :
    ∃ pos arr, arrPos[index]? = some pos ∧ arrs[index]? = some arr ∧ rest = arr.drop pos := by
  rw [rests, List.getElem?_zipWith_eq_some] at hrest
  obtain ⟨pos, arr, hpos, harr, rfl⟩ := hrest
  exact ⟨pos, arr, hpos, harr, rfl⟩

/-- The search finds an array whose rest begins with the top, if there is one. -/
theorem findArray_spec (hlength : arrPos.length = arrs.length) {indices : List Nat}
    (hindices : ∀ index ∈ indices, index < arrs.length)
    (hexists : ∃ index ∈ indices, ∃ tail, (rests arrs arrPos)[index]? = some (top :: tail)) :
    ∃ index tail, findArray arrs arrPos top indices = .ok index ∧
      (rests arrs arrPos)[index]? = some (top :: tail) := by
  induction indices with
  | nil =>
      obtain ⟨index, hindex, -⟩ := hexists
      exact absurd hindex List.not_mem_nil
  | cons i indices ih =>
      have hlt := hindices i List.mem_cons_self
      obtain ⟨pos, hpos⟩ : ∃ pos, arrPos[i]? = some pos := ⟨_, List.getElem?_eq_getElem (by omega)⟩
      obtain ⟨arr, harr⟩ : ∃ arr, arrs[i]? = some arr := ⟨_, List.getElem?_eq_getElem hlt⟩
      have hrest : (rests arrs arrPos)[i]? = some (arr.drop pos) :=
        List.getElem?_zipWith_eq_some.mpr ⟨pos, arr, hpos, harr, rfl⟩
      have hskip : arr.drop pos = [] ∨ (∃ head tail, arr.drop pos = head :: tail ∧ head ≠ top) →
          ∃ index ∈ indices, ∃ tail, (rests arrs arrPos)[index]? = some (top :: tail) := by
        intro hother
        obtain ⟨index, hmem, tail, htail⟩ := hexists
        rcases List.mem_cons.mp hmem with rfl | hmem
        · rw [hrest] at htail
          grind
        · exact ⟨index, hmem, tail, htail⟩
      have hrestIndices : ∀ index ∈ indices, index < arrs.length :=
        fun index hindex => hindices index (List.mem_cons_of_mem _ hindex)
      rw [findArray, access_eq_ok hpos, ok_bind, access_eq_ok harr, ok_bind]
      by_cases hinside : pos < arr.length
      · have hdrop := List.drop_eq_getElem_cons hinside
        rw [if_pos hinside, access_eq_ok (List.getElem?_eq_getElem hinside), ok_bind]
        by_cases hequal : arr[pos] = top
        · rw [if_pos hequal]
          exact ⟨i, arr.drop (pos + 1), rfl, by rw [hrest, hdrop, hequal]⟩
        · rw [if_neg hequal]
          exact ih hrestIndices (hskip (.inr ⟨_, _, hdrop, hequal⟩))
      · rw [if_neg hinside]
        exact ih hrestIndices (hskip (.inl (List.drop_eq_nil_of_le (by omega))))

/-- Moving the position of one array moves on in its rest only. -/
theorem rests_set {index : Nat} {arr : List TimestampsAccNumber} (harr : arrs[index]? = some arr)
    (pos : Nat) :
    rests arrs (arrPos.set index pos) = (rests arrs arrPos).set index (arr.drop pos) := by
  apply List.ext_getElem?
  intro place
  simp only [rests, List.getElem?_zipWith, List.getElem?_set, List.length_zipWith]
  by_cases hplace : index = place
  · subst place
    have hlt := (List.getElem?_eq_some_iff.mp harr).1
    rw [harr]
    by_cases hinside : index < arrPos.length
    · simp [hinside, Nat.lt_min.mpr ⟨hinside, hlt⟩]
    · have houtside : ¬ index < min arrPos.length arrs.length := by omega
      simp only [if_pos, if_neg hinside, if_neg houtside]
  · simp [hplace]

/-- The queue after a round: the next element of the array takes the place of the top. -/
def nextQueue (pq : TimestampQueue) (queue : pq.Queue) : List TimestampsAccNumber → pq.Queue
  | [] => pq.pop queue
  | next :: _ => pq.push (pq.pop queue) next

/-- One round of the loop, when the array of the top was found. -/
theorem mergeLoop_succ {fuel index pos : Nat} {queue : pq.Queue}
    {arr tail res : List TimestampsAccNumber}
    (htop : pq.top queue = some top)
    (hfind : findArray arrs arrPos top (List.range arrs.length) = .ok index)
    (hpos : arrPos[index]? = some pos) (harr : arrs[index]? = some arr)
    (hdrop : arr.drop (pos + 1) = tail) :
    mergeLoop pq arrs (fuel + 1) queue arrPos res =
      mergeLoop pq arrs fuel (nextQueue pq queue tail) (arrPos.set index (pos + 1))
        (res ++ [top]) := by
  simp only [mergeLoop, htop, hfind, access_eq_ok hpos, access_eq_ok harr, ok_bind]
  cases tail with
  | nil =>
      rw [if_neg (by rw [List.drop_eq_nil_iff] at hdrop; omega)]
      rfl
  | cons next tail =>
      have hnext : arr[pos + 1]? = some next := by
        rw [← List.head?_drop, hdrop, List.head?_cons]
      rw [if_pos (List.getElem?_eq_some_iff.mp hnext).1, access_eq_ok hnext, ok_bind]
      rfl

/-- The queue goes on holding the next elements of the arrays. -/
theorem elements_nextQueue {queue : pq.Queue} (htop : pq.top queue = some top)
    {before after : List (List TimestampsAccNumber)} {tail : List TimestampsAccNumber}
    (helements : pq.elements queue = heads (before ++ (top :: tail) :: after)) :
    pq.elements (nextQueue pq queue tail) = heads (before ++ tail :: after) := by
  have hpop : pq.elements (pq.pop queue) = (heads before ++ heads after : List _) := by
    rw [pq.elements_top queue top htop, heads_append_cons, List.head?_cons, Option.toList_some,
      List.singleton_append] at helements
    rw [← Multiset.cons_inj_right top, helements, Multiset.cons_coe, Multiset.coe_eq_coe]
    exact List.perm_middle
  cases tail with
  | nil =>
      rw [nextQueue, hpop, heads_append_cons]
      rfl
  | cons next tail =>
      rw [nextQueue, pq.elements_push, hpop, heads_append_cons, Multiset.cons_coe,
        Multiset.coe_eq_coe]
      exact List.perm_middle.symm

def TimestampsAccNumber.Le (first second : TimestampsAccNumber) : Prop :=
  first.timestamp ≤ second.timestamp

instance : IsTrans TimestampsAccNumber TimestampsAccNumber.Le :=
  ⟨fun _ _ _ => BitVec.le_trans⟩

theorem TimestampsAccNumber.le_of_not_greater {first second : TimestampsAccNumber}
    (hnot : first.greater second = false) : first.Le second :=
  BitVec.not_lt.mp (of_decide_eq_false hnot)

/-- The array that a round takes its element from, and what it leaves. -/
theorem findArray_of_mem_heads (hlength : arrPos.length = arrs.length)
    (hmem : top ∈ heads (rests arrs arrPos)) :
    ∃ index pos arr before after,
      findArray arrs arrPos top (List.range arrs.length) = .ok index ∧
      arrPos[index]? = some pos ∧ arrs[index]? = some arr ∧
      rests arrs arrPos = before ++ (top :: arr.drop (pos + 1)) :: after ∧
      rests arrs (arrPos.set index (pos + 1)) = before ++ arr.drop (pos + 1) :: after := by
  obtain ⟨list, hlist, hhead⟩ := List.mem_filterMap.mp hmem
  obtain ⟨place, hplace⟩ := List.mem_iff_getElem?.mp hlist
  obtain ⟨first, rfl⟩ : ∃ tail, list = top :: tail := by
    cases list with
    | nil => exact absurd hhead nofun
    | cons head tail => exact ⟨tail, by rw [Option.some.inj hhead]⟩
  obtain ⟨_, _, hpos, harr, -⟩ := getElem?_rests hplace
  have hinside : ∀ index ∈ List.range arrs.length, index < arrs.length :=
    fun _ => List.mem_range.mp
  obtain ⟨index, tail, hfind, htail⟩ := findArray_spec hlength hinside
    ⟨place, List.mem_range.mpr (List.getElem?_eq_some_iff.mp harr).1, first, hplace⟩
  obtain ⟨pos, arr, hpos, harr, hdrop⟩ := getElem?_rests htail
  have hrest : arr.drop (pos + 1) = tail := by
    rw [← List.drop_drop, ← hdrop, List.drop_one, List.tail_cons]
  have hlt := (List.getElem?_eq_some_iff.mp htail).1
  refine ⟨index, pos, arr, (rests arrs arrPos).take index, (rests arrs arrPos).drop (index + 1),
    hfind, hpos, harr, ?_, ?_⟩
  · rw [hrest]
    have hsplit := List.take_append_drop index (rests arrs arrPos)
    rw [List.drop_eq_getElem_cons hlt, (List.getElem?_eq_some_iff.mp htail).2] at hsplit
    exact hsplit.symm
  · rw [rests_set harr, List.set_eq_take_append_cons_drop, if_pos hlt]

/-- From any point of the loop, what is still to come is a merge of the rests. There is
one round for each element of them. -/
theorem mergeLoop_spec (hlength : arrPos.length = arrs.length) {queue : pq.Queue}
    (helements : pq.elements queue = heads (rests arrs arrPos)) (fuel : Nat)
    (res : List TimestampsAccNumber) :
    (mergeLoop pq arrs fuel queue arrPos res = .error .outOfFuel ∧
      fuel ≤ (rests arrs arrPos).flatten.length) ∨
    ∃ merged, mergeLoop pq arrs fuel queue arrPos res = .ok (res ++ merged) ∧
      Merges TimestampsAccNumber.Le (rests arrs arrPos) merged := by
  induction fuel generalizing queue arrPos res with
  | zero => exact .inl ⟨rfl, Nat.zero_le _⟩
  | succ fuel ih =>
      cases htop : pq.top queue with
      | none =>
          right
          rw [pq.top_eq_none queue htop, eq_comm, Multiset.coe_eq_zero, heads_eq_nil_iff]
            at helements
          exact ⟨[], by rw [mergeLoop, htop, List.append_nil], .done helements⟩
      | some top =>
          have hmem : top ∈ heads (rests arrs arrPos) := by
            rw [← Multiset.mem_coe, ← helements, pq.elements_top queue top htop]
            exact Multiset.mem_cons_self _ _
          obtain ⟨index, pos, arr, before, after, hfind, hpos, harr, hbefore, hafter⟩ :=
            findArray_of_mem_heads hlength hmem
          have hfirst : ∀ head ∈ heads (rests arrs arrPos), top.Le head := by
            intro head hhead
            rw [← Multiset.mem_coe, ← helements] at hhead
            exact TimestampsAccNumber.le_of_not_greater (pq.top_first queue top htop head hhead)
          have hnext := elements_nextQueue htop (helements.trans (by rw [hbefore]))
          rw [← hafter] at hnext
          rw [mergeLoop_succ htop hfind hpos harr rfl]
          rcases ih (by rwa [List.length_set]) hnext (res ++ [top]) with
            ⟨hfuel, hle⟩ | ⟨merged, hok, hmerges⟩
          · left
            refine ⟨hfuel, ?_⟩
            rw [hafter] at hle
            rw [hbefore]
            simp only [List.flatten_append, List.flatten_cons, List.length_append,
              List.length_cons] at hle ⊢
            omega
          · right
            refine ⟨top :: merged, by rw [hok, List.append_assoc, List.singleton_append], ?_⟩
            rw [hafter] at hmerges
            rw [hbefore] at hfirst ⊢
            exact .take hfirst hmerges

end Loop

/-! ## The result -/

section Result

variable (pq : TimestampQueue) (arrs : List (List TimestampsAccNumber))

theorem rests_replicate_zero : rests arrs (List.replicate arrs.length 0) = arrs := by
  apply List.ext_getElem?
  intro index
  rw [rests, List.getElem?_zipWith]
  cases harr : arrs[index]? with
  | none => simp
  | some arr =>
      have hlt := (List.getElem?_eq_some_iff.mp harr).1
      simp [hlt]

theorem mergeResult_of_empty (hlength : arrs.length ≠ 1) (hempty : [] ∈ arrs) (fuel : Nat) :
    mergeResult pq arrs fuel = .error .outOfRange := by
  have hpush : pushFirsts pq arrs (List.range' 0 arrs.length) pq.empty = .error .outOfRange :=
    @pushFirsts_of_empty pq arrs [] arrs rfl hempty pq.empty
  rw [mergeResult, if_neg hlength, List.range_eq_range', hpush]
  rfl

/-- Several arrays that all have an element are merged. -/
theorem mergeResult_of_nonempty (hlength : arrs.length ≠ 1) (hnonempty : ∀ arr ∈ arrs, arr ≠ [])
    (fuel : Nat) :
    (mergeResult pq arrs fuel = .error .outOfFuel ∧ fuel ≤ arrs.flatten.length) ∨
    ∃ merged, mergeResult pq arrs fuel = .ok merged ∧
      Merges TimestampsAccNumber.Le arrs merged := by
  obtain ⟨queue, hpush, helements⟩ :=
    @pushFirsts_of_nonempty pq arrs [] arrs rfl hnonempty pq.empty
  rw [pq.elements_empty, Multiset.zero_add] at helements
  rw [List.length_nil] at hpush
  rw [mergeResult, if_neg hlength, List.range_eq_range', hpush, ok_bind]
  have hspec := @mergeLoop_spec pq arrs (List.replicate arrs.length 0) List.length_replicate queue
    (by rw [rests_replicate_zero, helements]) fuel []
  rwa [rests_replicate_zero] at hspec

/-- No access is out of range exactly for one array, or arrays that all have an
element; and then the result is a merge, for every priority queue. -/
theorem mergeResult_correct :
    ((∀ fuel, mergeResult pq arrs fuel ≠ .error .outOfRange) ↔
      arrs.length = 1 ∨ ∀ arr ∈ arrs, arr ≠ []) ∧
    (arrs.length = 1 ∨ (∀ arr ∈ arrs, arr ≠ []) → ∀ fuel, arrs.flatten.length < fuel →
      ∃ result, mergeResult pq arrs fuel = .ok result ∧ result.Perm arrs.flatten ∧
        ((∀ arr ∈ arrs, arr.Pairwise TimestampsAccNumber.Le) →
          result.Pairwise TimestampsAccNumber.Le)) := by
  by_cases hlength : arrs.length = 1
  · obtain ⟨arr, rfl⟩ := List.length_eq_one_iff.mp hlength
    have hresult : ∀ fuel, mergeResult pq [arr] fuel = .ok arr := fun _ => rfl
    refine ⟨iff_of_true (fun fuel => ?_) (.inl rfl), fun _ fuel _ => ⟨arr, hresult fuel, ?_, ?_⟩⟩
    · rw [hresult fuel]
      nofun
    · rw [List.flatten_singleton]
    · exact fun hsorted => hsorted arr (List.mem_singleton_self arr)
  · constructor
    · constructor
      · intro hrange
        right
        rintro arr harr rfl
        exact hrange 0 (mergeResult_of_empty pq arrs hlength harr 0)
      · intro hnonempty fuel
        rcases mergeResult_of_nonempty pq arrs hlength (hnonempty.resolve_left hlength) fuel with
          ⟨hfuel, -⟩ | ⟨merged, hok, -⟩
        · rw [hfuel]
          nofun
        · rw [hok]
          nofun
    · intro hnonempty fuel hfuel
      rcases mergeResult_of_nonempty pq arrs hlength (hnonempty.resolve_left hlength) fuel with
        ⟨-, hle⟩ | ⟨merged, hok, hmerges⟩
      · omega
      · exact ⟨merged, hok, hmerges.perm, hmerges.sorted⟩

end Result

/-! ## A priority queue to run it with -/

/-- The last of the elements that are greater than no other. -/
def leastOf : List TimestampsAccNumber → Option TimestampsAccNumber
  | [] => none
  | value :: rest =>
      match leastOf rest with
      | none => some value
      | some least => if least.greater value then some value else some least

theorem leastOf_eq_none {values : List TimestampsAccNumber} (hnone : leastOf values = none) :
    values = [] := by
  cases values with
  | nil => rfl
  | cons value rest =>
      rw [leastOf] at hnone
      split at hnone
      · exact absurd hnone nofun
      · split at hnone <;> exact absurd hnone nofun

theorem leastOf_spec {values : List TimestampsAccNumber} {least : TimestampsAccNumber}
    (hleast : leastOf values = some least) :
    least ∈ values ∧ ∀ other ∈ values, least.greater other = false := by
  induction values generalizing least with
  | nil => exact absurd hleast nofun
  | cons value rest ih =>
      rw [leastOf] at hleast
      cases hrest : leastOf rest with
      | none =>
          obtain rfl := leastOf_eq_none hrest
          simp only [hrest, Option.some.injEq] at hleast
          subst hleast
          simp [TimestampsAccNumber.greater]
      | some other =>
          obtain ⟨hmem, hfirst⟩ := ih hrest
          simp only [hrest] at hleast
          simp only [TimestampsAccNumber.greater, decide_eq_false_iff_not, gt_iff_lt,
            BitVec.not_lt] at hfirst ⊢
          split at hleast
          next hgreater =>
            obtain rfl := Option.some.inj hleast
            have hlt : value.timestamp < other.timestamp := of_decide_eq_true hgreater
            refine ⟨List.mem_cons_self, fun third hthird => ?_⟩
            rcases List.mem_cons.mp hthird with rfl | hthird
            · exact BitVec.le_refl _
            · exact BitVec.le_trans (BitVec.le_of_lt hlt) (hfirst third hthird)
          next hgreater =>
            obtain rfl := Option.some.inj hleast
            have hle : other.timestamp ≤ value.timestamp :=
              BitVec.not_lt.mp (fun hlt => hgreater (decide_eq_true hlt))
            refine ⟨List.mem_cons_of_mem _ hmem, fun third hthird => ?_⟩
            rcases List.mem_cons.mp hthird with rfl | hthird
            · exact hle
            · exact hfirst third hthird

/-- A queue that searches its least element. -/
def searchQueue : TimestampQueue where
  Queue := List TimestampsAccNumber
  elements queue := queue
  empty := []
  push queue value := value :: queue
  top := leastOf
  pop queue := match leastOf queue with
    | none => queue
    | some least => queue.erase least
  elements_empty := rfl
  elements_push _ _ := rfl
  top_eq_none _ hnone := by rw [leastOf_eq_none hnone]; rfl
  elements_top queue value hvalue := by
    rw [hvalue, Multiset.cons_coe, Multiset.coe_eq_coe]
    exact List.perm_cons_erase (leastOf_spec hvalue).1
  top_first _ _ hvalue := (leastOf_spec hvalue).2

example : mergeResult searchQueue [[⟨1, 7⟩, ⟨3, 0⟩], [⟨1, 7⟩, ⟨2, 5⟩], [⟨2, 5⟩]] 6 =
    .ok [⟨1, 7⟩, ⟨1, 7⟩, ⟨2, 5⟩, ⟨2, 5⟩, ⟨3, 0⟩] := by decide

end BenchBF3.Receive
