import Mathlib.Data.Finset.Card
import Mathlib.Data.Finset.Image
import BenchBF3.Jobs.Pipeline

/-! # The erasure coding benchmark

A block has `k` data shards and `m` parity shards. The decoding benchmark draws `m`
shards to be lost and copies the others, in order, to the rows from which the lost
ones are recovered. The loop that does so breaks after `m` rows where it should after
`k`. Both benchmarks go on counting with the index of their jobs while they dequeue
the last batch, and report that index as the number of operations.
-/

namespace BenchBF3.Jobs

open Foundation

/-! ## The shards to be lost -/

/-- The loop of `random_vec`, over the numbers that the generator gives. -/
def randomVecLoop (v : List (BitVec 32)) (a : Nat) :
    List Nat → Finset (BitVec 32) → Option (Finset (BitVec 32))
  | [], result => if result.card < a then none else some result
  | draw :: draws, result =>
      if result.card < a then
        randomVecLoop v a draws (insert (v.getD (draw % v.length) 0) result)
      else some result

def randomVec (v : List (BitVec 32)) (a : Nat) (draws : List Nat) : Option (Finset (BitVec 32)) :=
  randomVecLoop v a draws ∅

/-- The numbers of all shards, from which `random_vec` draws. -/
def randomPos (k m : Nat) : List (BitVec 32) := (List.range (k + m)).map (BitVec.ofNat 32)

theorem randomVecLoop_spec {v : List (BitVec 32)} {a : Nat} (hv : v ≠ []) {draws : List Nat}
    {result drawn : Finset (BitVec 32)} (hcard : result.card ≤ a)
    (hmem : ∀ index ∈ result, index ∈ v) (hdrawn : randomVecLoop v a draws result = some drawn) :
    drawn.card = a ∧ ∀ index ∈ drawn, index ∈ v := by
  induction draws generalizing result with
  | nil =>
      rw [randomVecLoop] at hdrawn
      split at hdrawn
      next => exact absurd hdrawn nofun
      next hfull =>
        obtain rfl := Option.some.inj hdrawn
        exact ⟨by omega, hmem⟩
  | cons draw draws ih =>
      rw [randomVecLoop] at hdrawn
      split at hdrawn
      next hroom =>
        refine ih ?_ ?_ hdrawn
        · exact (Finset.card_insert_le _ _).trans hroom
        · intro index hindex
          rcases Finset.mem_insert.mp hindex with rfl | hold
          · have hlt : draw % v.length < v.length :=
              Nat.mod_lt _ (List.length_pos_of_ne_nil hv)
            rw [List.getD_eq_getElem?_getD, List.getElem?_eq_getElem hlt, Option.getD_some]
            exact List.getElem_mem hlt
          · exact hmem index hold
      next hfull =>
        obtain rfl := Option.some.inj hdrawn
        exact ⟨by omega, hmem⟩

/-- Whatever is drawn, the result is a set of `m` numbers of shards. -/
theorem randomVec_spec {k m : Nat} (hm : 1 ≤ m) {draws : List Nat} {drawn : Finset (BitVec 32)}
    (hdrawn : randomVec (randomPos k m) m draws = some drawn) :
    drawn.card = m ∧ ∀ index ∈ drawn, index.toNat < k + m := by
  have hpos : randomPos k m ≠ [] := by
    rw [randomPos, Ne, List.map_eq_nil_iff, List.range_eq_nil]
    omega
  obtain ⟨hcard, hmem⟩ := randomVecLoop_spec hpos (Nat.zero_le m) (by simp) hdrawn
  refine ⟨hcard, fun index hindex => ?_⟩
  obtain ⟨number, hnumber, rfl⟩ := List.mem_map.mp (hmem index hindex)
  rw [BitVec.toNat_ofNat]
  exact (Nat.mod_le _ _).trans_lt (List.mem_range.mp hnumber)

/-- Drawing new members one after the other adds them all. -/
theorem randomVecLoop_of_nodup {v : List (BitVec 32)} {a : Nat} {members : List (BitVec 32)}
    {result : Finset (BitVec 32)} (hnodup : members.Nodup)
    (hnew : ∀ member ∈ members, member ∉ result)
    (hv : ∀ member ∈ members, v.getD (member.toNat % v.length) 0 = member)
    (hcard : result.card + members.length = a) :
    randomVecLoop v a (members.map BitVec.toNat) result = some (result ∪ members.toFinset) := by
  induction members generalizing result with
  | nil =>
      rw [List.map_nil, randomVecLoop, if_neg (by simp at hcard; omega), List.toFinset_nil,
        Finset.union_empty]
  | cons member members ih =>
      obtain ⟨hfirst, hrest⟩ := List.nodup_cons.mp hnodup
      rw [List.length_cons] at hcard
      rw [List.map_cons, randomVecLoop, if_pos (by omega), hv member List.mem_cons_self, ih hrest]
      · rw [List.toFinset_cons, Finset.union_insert, Finset.insert_union]
      · intro other hother
        rw [Finset.mem_insert, not_or]
        exact ⟨fun hsame => hfirst (hsame ▸ hother), hnew other (List.mem_cons_of_mem _ hother)⟩
      · exact fun other hother => hv other (List.mem_cons_of_mem _ hother)
      · rw [Finset.card_insert_of_notMem (hnew member List.mem_cons_self)]
        omega

/-- Every set of `m` numbers of shards can be drawn. -/
theorem exists_draws {k m : Nat} {randomSet : Finset (BitVec 32)} (hcard : randomSet.card = m)
    (hmem : ∀ index ∈ randomSet, index.toNat < k + m) :
    ∃ draws, randomVec (randomPos k m) m draws = some randomSet := by
  refine ⟨randomSet.toList.map BitVec.toNat, ?_⟩
  have hlength : (randomPos k m).length = k + m := by simp [randomPos]
  rw [randomVec, randomVecLoop_of_nodup randomSet.nodup_toList (by simp), Finset.toList_toFinset,
    Finset.empty_union]
  · intro member hmember
    have hlt := hmem member (Finset.mem_toList.mp hmember)
    rw [hlength, Nat.mod_eq_of_lt hlt, List.getD_eq_getElem?_getD]
    simp [randomPos, hlt]
  · rw [Finset.card_empty, Finset.length_toList, hcard, Nat.zero_add]

/-! ## Gathering the others -/

section Gather

variable {α : Type*}

/-- The rows of `k_data[i]`, the running position among them, and the rows written. -/
structure Gather (α : Type*) where
  posJ : Nat
  kData : Nat → α
  written : List Nat

def Gather.copy (gather : Gather α) (shard : α) : Gather α where
  posJ := gather.posJ + 1
  kData := Function.update gather.kData gather.posJ shard
  written := gather.written ++ [gather.posJ]

/-- The loop of `enqueue_job` over the positions of the shards, with its break. -/
def gatherLoop (m : Nat) (randomSet : Finset (BitVec 32)) (data : Nat → α) :
    List Nat → Gather α → Gather α
  | [], gather => gather
  | posI :: rest, gather =>
      if BitVec.ofNat 32 posI ∈ randomSet then gatherLoop m randomSet data rest gather
      else if (gather.copy (data posI)).posJ = m then gather.copy (data posI)
      else gatherLoop m randomSet data rest (gather.copy (data posI))

def gatherShards (k m : Nat) (randomSet : Finset (BitVec 32)) (data kData : Nat → α) : Gather α :=
  gatherLoop m randomSet data (List.range (k + m)) ⟨0, kData, []⟩

/-- The shards that are not lost, in increasing order. -/
def survivors (k m : Nat) (randomSet : Finset (BitVec 32)) : List Nat :=
  (List.range (k + m)).filter fun index => index ∉ randomSet.image BitVec.toNat

/-- Which positions the loop copies: those not in the set, until the row `m` is reached. -/
def copied (m : Nat) (randomSet : Finset (BitVec 32)) (positions : List Nat) (posJ : Nat) :
    List Nat :=
  (positions.filter fun posI => BitVec.ofNat 32 posI ∉ randomSet).take (m - posJ)

variable {m : Nat} {randomSet : Finset (BitVec 32)} {data : Nat → α}

theorem copied_cons_of_mem {posI posJ : Nat} {rest : List Nat}
    (hmem : BitVec.ofNat 32 posI ∈ randomSet) :
    copied m randomSet (posI :: rest) posJ = copied m randomSet rest posJ := by
  simp [copied, hmem]

theorem copied_cons_of_not_mem {posI posJ : Nat} {rest : List Nat}
    (hmem : BitVec.ofNat 32 posI ∉ randomSet) (hlt : posJ < m) :
    copied m randomSet (posI :: rest) posJ = posI :: copied m randomSet rest (posJ + 1) := by
  obtain ⟨room, hroom⟩ := Nat.exists_eq_succ_of_ne_zero (Nat.sub_ne_zero_of_lt hlt)
  have hnext : m - (posJ + 1) = room := by omega
  simp [copied, hmem, hroom, hnext]

/-- The copies are put into consecutive rows, and the other rows are kept. -/
theorem gatherLoop_spec (positions : List Nat) (gather : Gather α) (hlt : gather.posJ < m) :
    (gatherLoop m randomSet data positions gather).written = gather.written ++
      List.range' gather.posJ (copied m randomSet positions gather.posJ).length ∧
    ∀ row, (gatherLoop m randomSet data positions gather).kData row =
      if row < gather.posJ then gather.kData row
      else (((copied m randomSet positions gather.posJ)[row - gather.posJ]?).map data).getD
        (gather.kData row) := by
  induction positions generalizing gather with
  | nil => simp [gatherLoop, copied]
  | cons posI rest ih =>
      by_cases hmem : BitVec.ofNat 32 posI ∈ randomSet
      · rw [gatherLoop, if_pos hmem, copied_cons_of_mem hmem]
        exact ih gather hlt
      · rw [gatherLoop, if_neg hmem, copied_cons_of_not_mem hmem hlt]
        split
        next hbreak =>
          have hnone : copied m randomSet rest (gather.posJ + 1) = [] := by
            have hzero : m - (gather.posJ + 1) = 0 := by
              change gather.posJ + 1 = m at hbreak
              omega
            rw [copied, hzero, List.take_zero]
          rw [hnone]
          refine ⟨by simp [Gather.copy], fun row => ?_⟩
          simp only [Gather.copy, Function.update_apply, List.getElem?_singleton]
          grind
        next hgo =>
          have hnext : (gather.copy (data posI)).posJ < m := by
            change gather.posJ + 1 ≠ m at hgo
            change gather.posJ + 1 < m
            omega
          obtain ⟨hwritten, hrows⟩ := ih (gather.copy (data posI)) hnext
          refine ⟨?_, fun row => ?_⟩
          · rw [hwritten]
            simp [Gather.copy, List.range'_succ]
          · rw [hrows row]
            simp only [Gather.copy, Function.update_apply]
            grind

/-- An index of a shard is in the set when its number is that of a member; the
members have 32 bits. -/
theorem ofNat_mem_iff {index : Nat} (hindex : index < 2 ^ 32) :
    BitVec.ofNat 32 index ∈ randomSet ↔ index ∈ randomSet.image BitVec.toNat := by
  rw [Finset.mem_image]
  constructor
  · intro hmem
    exact ⟨_, hmem, by rw [BitVec.toNat_ofNat, Nat.mod_eq_of_lt hindex]⟩
  · rintro ⟨member, hmember, rfl⟩
    rwa [BitVec.ofNat_toNat, BitVec.setWidth_eq]

variable {k : Nat}

theorem copied_eq_take (hindex : k + m ≤ 2 ^ 32) :
    copied m randomSet (List.range (k + m)) 0 = (survivors k m randomSet).take m := by
  have hfilter : (List.range (k + m)).filter (fun posI => BitVec.ofNat 32 posI ∉ randomSet) =
      survivors k m randomSet := by
    apply List.filter_congr
    intro posI hposI
    simp only [ofNat_mem_iff ((List.mem_range.mp hposI).trans_le hindex)]
  rw [copied, hfilter, Nat.sub_zero]

/-- As many shards survive as there are data shards. -/
theorem length_survivors (hcard : randomSet.card = m)
    (hmem : ∀ index ∈ randomSet, index.toNat < k + m) :
    (survivors k m randomSet).length = k := by
  have hsubset : randomSet.image BitVec.toNat ⊆ Finset.range (k + m) := by
    intro index hindex
    obtain ⟨member, hmember, rfl⟩ := Finset.mem_image.mp hindex
    exact Finset.mem_range.mpr (hmem member hmember)
  have himage : (randomSet.image BitVec.toNat).card = m := by
    rw [Finset.card_image_of_injective _ fun _ _ => BitVec.eq_of_toNat_eq, hcard]
  have hsurvivors : (survivors k m randomSet).toFinset =
      Finset.range (k + m) \ randomSet.image BitVec.toNat := by
    ext index
    simp [survivors]
  have hnodup : (survivors k m randomSet).Nodup := List.nodup_range.filter _
  rw [← List.toFinset_card_of_nodup hnodup, hsurvivors,
    Finset.card_sdiff_of_subset hsubset, Finset.card_range, himage, Nat.add_sub_cancel]

/-- The rows after the loop: the first `m` are survivors, the others are as before. -/
theorem gatherShards_spec (hm : 1 ≤ m) (hindex : k + m ≤ 2 ^ 32) (data kData : Nat → α) :
    (gatherShards k m randomSet data kData).written =
      List.range (min m (survivors k m randomSet).length) ∧
    ∀ row, (gatherShards k m randomSet data kData).kData row =
      ((((survivors k m randomSet).take m)[row]?).map data).getD (kData row) := by
  obtain ⟨hwritten, hrows⟩ :=
    @gatherLoop_spec _ m randomSet data (List.range (k + m)) ⟨0, kData, []⟩ hm
  rw [copied_eq_take hindex] at hwritten hrows
  refine ⟨?_, ?_⟩
  · rw [gatherShards, hwritten, List.length_take, List.range_eq_range', List.nil_append]
  · intro row
    rw [gatherShards, hrows row, if_neg (Nat.not_lt_zero _), Nat.sub_zero]

/-- Rows `0` to `k - 1` hold the survivors in order, and no row behind them is written. -/
def Gathered (k m : Nat) (randomSet : Finset (BitVec 32)) (data kData : Nat → α) : Prop :=
  (∀ row < k, (survivors k m randomSet)[row]?.map data =
    some ((gatherShards k m randomSet data kData).kData row)) ∧
  ∀ row ∈ (gatherShards k m randomSet data kData).written, row < k

/-- For all numbers of shards, all sets of lost ones and all contents: the rows are right
exactly when those from `m` on were right before. With `k ≤ m` there are none. -/
theorem gathered_iff (hm : 1 ≤ m) (hindex : k + m ≤ 2 ^ 32) (hcard : randomSet.card = m)
    (hmem : ∀ index ∈ randomSet, index.toNat < k + m) (data kData : Nat → α) :
    Gathered k m randomSet data kData ↔
      ∀ row, m ≤ row → row < k → (survivors k m randomSet)[row]?.map data = some (kData row) := by
  have hlength := length_survivors hcard hmem
  obtain ⟨hwritten, hrows⟩ := @gatherShards_spec _ m randomSet k hm hindex data kData
  have hbehind : ∀ row ∈ (gatherShards k m randomSet data kData).written, row < k := by
    intro row hrow
    rw [hwritten, hlength, List.mem_range] at hrow
    omega
  constructor
  · rintro ⟨hall, -⟩ row hge hlt
    rw [hall row hlt, hrows, List.getElem?_take, if_neg (by omega)]
    rfl
  · intro hbefore
    refine ⟨fun row hlt => ?_, hbehind⟩
    rw [hrows, List.getElem?_take]
    by_cases hcopied : row < m
    · have hsome := List.getElem?_eq_getElem (l := survivors k m randomSet) (i := row) (by omega)
      rw [if_pos hcopied, hsome]
      rfl
    · rw [if_neg hcopied, hbefore row (by omega) hlt]
      rfl

end Gather

/-- Four data shards and two parity shards, of which shards 1 and 3 are lost: the loop
copies shards 0 and 2, and all depends on what the other two rows held before. -/
theorem gathered_iff_sixShards :
    Gathered 4 2 {1, 3} (fun index => index) (fun row => row + 2) ∧
      ¬ Gathered 4 2 {1, 3} (fun index => index) (fun _ => 7) := by
  have hiff := fun kData => gathered_iff (k := 4) (m := 2) (by decide) (by decide)
    (show ({1, 3} : Finset (BitVec 32)).card = 2 by decide) (by simp) (fun index => index) kData
  constructor
  · apply (hiff _).mpr
    intro row hge hlt
    obtain rfl | rfl : row = 2 ∨ row = 3 := by omega
    · decide
    · decide
  · intro hgathered
    exact absurd ((hiff _).mp hgathered 2 (by decide) (by decide)) (by decide)

/-- With two data shards and one parity shard, of which shard 0 is lost, the loop breaks
before it copies shard 2. -/
theorem not_gathered : ¬ Gathered 2 1 {0} (fun index => index) (fun _ => 7) := by
  rintro ⟨hrows, -⟩
  exact absurd (hrows 1 (by decide)) (by decide)

/-! ## The reported number of operations -/

def ecBenchEncoding (batchSize blocks : BitVec 64) : JobBench where
  batchSize := batchSize
  blocks := blocks
  guard := .running
  vecs := 2

/-- Decoding keeps the recovery matrix of each job in a third array. -/
def ecBenchDecoding (batchSize blocks : BitVec 64) : JobBench where
  batchSize := batchSize
  blocks := blocks
  guard := .running
  vecs := 3

section Report

variable {batchSize blocks : BitVec 64} {bench : JobBench} {state : Pipeline}

/-- The index counts the last batch twice. -/
theorem totalIndex_eq (hreach : (benchSystem bench).Reachable state) (hpc : state.pc = .done) :
    state.completed = state.submitted.length ∧
      state.totalIndex = BitVec.ofNat 64 (state.submitted.length + bench.batchSize.toNat) := by
  obtain ⟨hcounted, hpolled, hcompleted⟩ := benchSystem_ok hreach
  simp only [Pipeline.Counted, hpc] at hcounted
  exact ⟨by omega, hcounted.1⟩

/-- A positive number below the range, added modulo the range, changes a number. -/
theorem totalIndex_ne (hbatch : 1 ≤ bench.batchSize.toNat)
    (hreach : (benchSystem bench).Reachable state) (hpc : state.pc = .done) :
    state.totalIndex.toNat ≠ state.submitted.length := by
  have hlt := bench.batchSize.isLt
  rw [(totalIndex_eq hreach hpc).2, BitVec.toNat_ofNat]
  omega

/-- For every number of rounds of the middle loop there is a run to the end, and at the
end of every run all jobs are completed and the index is not their number. -/
theorem reported_never_jobs (hbatch : 1 ≤ batchSize.toNat) (bench : JobBench)
    (hbench : bench = ecBenchEncoding batchSize blocks ∨ bench = ecBenchDecoding batchSize blocks) :
    (∀ rounds, ∃ state, (benchSystem bench).Reachable state ∧ state.pc = .done ∧
      state.submitted.length = batchSize.toNat + rounds) ∧
    ∀ state, (benchSystem bench).Reachable state → state.pc = .done →
      state.completed = state.submitted.length ∧
      state.totalIndex.toNat ≠ state.submitted.length := by
  have hsize : bench.batchSize = batchSize := by
    rcases hbench with rfl | rfl <;> rfl
  have hguard : bench.guard = .running := by
    rcases hbench with rfl | rfl <;> rfl
  rw [← hsize] at hbatch ⊢
  constructor
  · intro rounds
    obtain ⟨state, hreach, hcaught⟩ := benchSystem_done bench rounds hbatch
      (by rw [hguard]; exact fun _ _ => trivial) (by rw [hguard]; trivial)
    exact ⟨state, hreach, hcaught.pc, hcaught.submitted⟩
  · intro state hreach hpc
    exact ⟨(totalIndex_eq hreach hpc).1, totalIndex_ne hbatch hreach hpc⟩

end Report

/-- A batch of two and three rounds of the middle loop. -/
theorem reported_never_jobs_threeRounds :
    ∃ state, (benchSystem (ecBenchEncoding 2 3)).Reachable state ∧ state.pc = .done ∧
      state.submitted.length = 5 ∧ state.totalIndex.toNat ≠ 5 := by
  obtain ⟨hruns, hnever⟩ := reported_never_jobs (show 1 ≤ (2 : BitVec 64).toNat by decide)
    (ecBenchEncoding 2 3) (.inl rfl)
  obtain ⟨state, hreach, hpc, hsubmitted⟩ := hruns 3
  have hfive : state.submitted.length = 5 := hsubmitted
  exact ⟨state, hreach, hpc, hfive, hfive ▸ (hnever state hreach hpc).2⟩

/-- A batch of two and one round of the middle loop: three jobs, reported as five. -/
theorem reports_five_of_three :
    ∃ state, (benchSystem (ecBenchDecoding 2 1)).Reachable state ∧ state.pc = .done ∧
      state.submitted.length = 3 ∧ state.totalIndex = 5 := by
  obtain ⟨state, hreach, hpc, hsubmitted, -⟩ := benchSystem_done (ecBenchDecoding 2 1) 1
    (by decide) (fun _ _ => trivial) trivial
  have hthree : state.submitted.length = 3 := hsubmitted
  refine ⟨state, hreach, hpc, hthree, ?_⟩
  rw [(totalIndex_eq hreach hpc).2, hthree]
  rfl

end BenchBF3.Jobs
