import BenchBF3.Foundation.Ints
import BenchBF3.Foundation.Shares

/-! # The chunks of the regex benchmark

`regex_bench` cuts its input into one chunk for each job of a batch. The length of a
chunk is what is left of the input, divided by the number of chunks left and rounded up.
It is kept in an `int`, which is enough as long as the first length is below 2^31. The
lengths are then even shares of the input, and the chunks follow one another.
-/

namespace BenchBF3.Jobs

open Foundation

/-- The arguments of `buf_inventory_buf_by_data`: an offset in the input, and a length. -/
structure Chunk where
  offset : BitVec 64
  length : BitVec 64
  deriving DecidableEq, Repr

structure RegexSplit where
  nowIndex : BitVec 64
  nowChunk : BitVec 64
  remainLength : BitVec 64
  bufsVec : List Chunk
  deriving DecidableEq, Repr

inductive RegexError
  | lengthLowerThanChunk
  | divideByZero
  deriving DecidableEq, Repr

namespace RegexSplit

def init (batchSize inputSize : BitVec 64) : RegexSplit where
  nowIndex := 0
  nowChunk := batchSize
  remainLength := inputSize
  bufsVec := []

/-- The `int` that the length of the next chunk is kept in. -/
def length (state : RegexSplit) : BitVec 32 :=
  ((state.remainLength - 1) / state.nowChunk + 1).setWidth 32

/-- One round of the loop; the `int` is converted back where it is used. -/
def round (state : RegexSplit) : Except RegexError RegexSplit :=
  if state.nowChunk = 0 then .error .divideByZero
  else
    let length := toSize state.length
    .ok
      { nowIndex := state.nowIndex + length
        nowChunk := state.nowChunk - 1
        remainLength := state.remainLength - length
        bufsVec := state.bufsVec ++ [⟨state.nowIndex, length⟩] }

def rounds : Nat → RegexSplit → Except RegexError RegexSplit
  | 0, state => .ok state
  | count + 1, state => do
      let state ← state.round
      rounds count state

end RegexSplit

/-- The chunks of an input, after the assertion on its length. -/
def regexChunks (batchSize inputSize : BitVec 64) : Except RegexError (List Chunk) :=
  if batchSize ≤ inputSize then do
    let state ← RegexSplit.rounds batchSize.toNat (.init batchSize inputSize)
    .ok state.bufsVec
  else .error .lengthLowerThanChunk

/-! ## What a good split is -/

/-- The chunks follow one another from a start to an end. -/
def Contiguous : (start : Nat) → List Chunk → (finish : Nat) → Prop
  | start, [], finish => start = finish
  | start, chunk :: chunks, finish =>
      chunk.offset.toNat = start ∧ Contiguous (start + chunk.length.toNat) chunks finish

def chunkLengths (chunks : List Chunk) : List Nat := chunks.map fun chunk => chunk.length.toNat

structure SplitsEvenly (chunks : List Chunk) (count total : Nat) : Prop where
  count : chunks.length = count
  contiguous : Contiguous 0 chunks total
  nonempty : ∀ length ∈ chunkLengths chunks, 1 ≤ length
  nonincreasing : (chunkLengths chunks).Pairwise (· ≥ ·)
  even : ∀ first ∈ chunkLengths chunks, ∀ second ∈ chunkLengths chunks, first ≤ second + 1

/-- None of the subtractions of the next round underflows, and it does not divide by zero. -/
structure RegexSplit.Safe (state : RegexSplit) : Prop where
  remainLength : 1 ≤ state.remainLength.toNat
  nowChunk : 1 ≤ state.nowChunk.toNat
  length_le : (toSize state.length).toNat ≤ state.remainLength.toNat

/-! ## The loop -/

/-- There are chunks left, a byte at least for each, and none gets too long. -/
structure RegexSplit.Ready (state : RegexSplit) (count : Nat) : Prop where
  nowChunk : state.nowChunk.toNat = count
  enough : count ≤ state.remainLength.toNat
  short : ∃ bound < 2 ^ 31, state.remainLength.toNat ≤ count * bound
  inside : state.nowIndex.toNat + state.remainLength.toNat < 2 ^ 64

section Rounds

variable {state : RegexSplit} {count : Nat}

/-- The ceiling, as the source computes it. -/
theorem pred_div_add_one {total divisor : Nat} (htotal : 1 ≤ total) (hdivisor : 1 ≤ divisor) :
    (total - 1) / divisor + 1 = total ⌈/⌉ divisor := by
  rw [Nat.ceilDiv_eq_add_pred_div, ← Nat.add_div_right _ hdivisor]
  congr 1
  omega

/-- The length of the next chunk is the next share: it fits the `int`. -/
theorem RegexSplit.Ready.length_eq (hready : state.Ready (count + 1)) :
    (toSize state.length).toNat = state.remainLength.toNat ⌈/⌉ (count + 1) := by
  obtain ⟨bound, hbound, hshort⟩ := hready.short
  have henough := hready.enough
  have hshare : state.remainLength.toNat ⌈/⌉ (count + 1) ≤ bound :=
    (ceilDiv_le_iff_le_mul (Nat.succ_pos count)).mpr hshort
  have hone : (1 : BitVec 64) ≤ state.remainLength := by
    rw [BitVec.le_def]
    exact (Nat.succ_pos count).trans_le henough
  have hword : ((state.remainLength - 1) / state.nowChunk + 1).toNat =
      state.remainLength.toNat ⌈/⌉ (count + 1) := by
    have hceil : (state.remainLength.toNat - 1) / (count + 1) + 1 =
        state.remainLength.toNat ⌈/⌉ (count + 1) :=
      pred_div_add_one (by omega) (Nat.succ_pos count)
    rw [BitVec.toNat_add, BitVec.toNat_udiv, BitVec.toNat_sub_of_le hone, hready.nowChunk]
    change ((state.remainLength.toNat - 1) / (count + 1) + 1) % 2 ^ 64 = _
    rw [hceil]
    exact Nat.mod_eq_of_lt (by omega)
  have hint : state.length.toNat = state.remainLength.toNat ⌈/⌉ (count + 1) := by
    rw [RegexSplit.length, BitVec.toNat_setWidth, hword]
    exact Nat.mod_eq_of_lt (by omega)
  rw [toNat_toSize_of_lt (by omega), hint]

theorem RegexSplit.Ready.safe (hready : state.Ready (count + 1)) : state.Safe where
  remainLength := (Nat.succ_pos count).trans_le hready.enough
  nowChunk := hready.nowChunk.symm ▸ Nat.succ_pos count
  length_le := hready.length_eq.symm ▸ ceilDiv_succ_le

/-- A round cuts off the next share and leaves the rest for the other chunks. -/
theorem RegexSplit.Ready.round (hready : state.Ready (count + 1)) :
    ∃ chunk next, state.round = .ok next ∧ next.Ready count ∧
      next.bufsVec = state.bufsVec ++ [chunk] ∧
      chunk.offset.toNat = state.nowIndex.toNat ∧
      chunk.length.toNat = state.remainLength.toNat ⌈/⌉ (count + 1) ∧
      next.nowIndex.toNat = state.nowIndex.toNat + chunk.length.toNat ∧
      next.remainLength.toNat =
        state.remainLength.toNat - state.remainLength.toNat ⌈/⌉ (count + 1) := by
  have hsafe := hready.safe
  have hlength := hready.length_eq
  have hshare := @ceilDiv_succ_le count state.remainLength.toNat
  have hinside := hready.inside
  have hnonzero : state.nowChunk ≠ 0 := by
    rintro hzero
    have hchunk := hready.nowChunk
    rw [hzero] at hchunk
    exact absurd hchunk.symm (Nat.succ_ne_zero count)
  have hremain : (state.remainLength - toSize state.length).toNat =
      state.remainLength.toNat - state.remainLength.toNat ⌈/⌉ (count + 1) := by
    rw [BitVec.toNat_sub_of_le hsafe.length_le, hlength]
  have hindex : (state.nowIndex + toSize state.length).toNat =
      state.nowIndex.toNat + state.remainLength.toNat ⌈/⌉ (count + 1) := by
    rw [BitVec.toNat_add, hlength]
    exact Nat.mod_eq_of_lt (by omega)
  have hchunk : (state.nowChunk - 1).toNat = count := by
    rw [BitVec.toNat_sub_of_le hsafe.nowChunk, hready.nowChunk]
    rfl
  refine ⟨⟨state.nowIndex, toSize state.length⟩, _, if_neg hnonzero, ⟨hchunk, ?_, ?_, ?_⟩, rfl,
    rfl, hlength, hlength ▸ hindex, hremain⟩
  · have henough : (count + 1) * 1 ≤ state.remainLength.toNat := by
      rw [Nat.mul_one]
      exact hready.enough
    have hleft := (mul_le_sub_ceilDiv henough).2
    rwa [Nat.mul_one, ← hremain] at hleft
  · obtain ⟨bound, hbound, hshort⟩ := hready.short
    refine ⟨bound, hbound, ?_⟩
    rw [hremain]
    exact sub_ceilDiv_le.trans (Nat.mul_le_mul_left count
      ((ceilDiv_le_iff_le_mul (Nat.succ_pos count)).mpr hshort))
  · change (state.nowIndex + toSize state.length).toNat +
      (state.remainLength - toSize state.length).toNat < 2 ^ 64
    rw [hindex, hremain]
    omega

/-- The rounds left cut the rest into its shares, one after the other. -/
theorem RegexSplit.Ready.rounds (hready : state.Ready count) :
    ∃ chunks next, rounds count state = .ok next ∧ next.bufsVec = state.bufsVec ++ chunks ∧
      chunkLengths chunks = shares count state.remainLength.toNat ∧
      Contiguous state.nowIndex.toNat chunks
        (state.nowIndex.toNat + (chunkLengths chunks).sum) := by
  induction count generalizing state with
  | zero => exact ⟨[], state, rfl, (List.append_nil _).symm, rfl, rfl⟩
  | succ count ih =>
      obtain ⟨chunk, middle, hround, hmiddle, hbufs, hoffset, hlength, hindex, hremain⟩ :=
        hready.round
      obtain ⟨chunks, next, hrounds, hrest, hlengths, hcontiguous⟩ := ih hmiddle
      refine ⟨chunk :: chunks, next, ?_, ?_, ?_, hoffset, ?_⟩
      · rw [RegexSplit.rounds, hround]
        exact hrounds
      · rw [hrest, hbufs, List.append_assoc, List.singleton_append]
      · change chunk.length.toNat :: chunkLengths chunks = _
        rw [hlengths, hremain, hlength, shares]
      · rw [hindex] at hcontiguous
        change Contiguous _ chunks (_ + (chunk.length.toNat :: chunkLengths chunks).sum)
        rwa [List.sum_cons, ← Nat.add_assoc]

/-- Every round on the way is a safe one. -/
theorem RegexSplit.Ready.safe_of_lt (hready : state.Ready count) {round : Nat}
    (hround : round < count) : ∃ next, RegexSplit.rounds round state = .ok next ∧ next.Safe := by
  induction round generalizing state count with
  | zero =>
      obtain ⟨left, rfl⟩ := Nat.exists_eq_add_of_lt hround
      rw [Nat.zero_add] at hready
      exact ⟨state, rfl, hready.safe⟩
  | succ round ih =>
      obtain ⟨left, rfl⟩ := Nat.exists_eq_add_of_lt hround
      obtain ⟨chunk, middle, hmiddle, hready', -⟩ := hready.round
      obtain ⟨next, hnext, hsafe⟩ := ih hready' (by omega)
      refine ⟨next, ?_, hsafe⟩
      rw [RegexSplit.rounds, hmiddle]
      exact hnext

end Rounds

/-- For every batch size and every input that is long enough: the loop runs through, and
its chunks are an even split of the input. -/
theorem regexChunks_splitsEvenly {batchSize inputSize : BitVec 64}
    (hbatch : 1 ≤ batchSize.toNat) (hlength : batchSize.toNat ≤ inputSize.toNat)
    (hint : inputSize.toNat ⌈/⌉ batchSize.toNat < 2 ^ 31) :
    (∀ round < batchSize.toNat, ∃ state,
      RegexSplit.rounds round (.init batchSize inputSize) = .ok state ∧ state.Safe) ∧
    ∃ chunks, regexChunks batchSize inputSize = .ok chunks ∧
      SplitsEvenly chunks batchSize.toNat inputSize.toNat := by
  have hready : (RegexSplit.init batchSize inputSize).Ready batchSize.toNat := by
    refine ⟨rfl, hlength, ⟨_, hint, (ceilDiv_le_iff_le_mul hbatch).mp le_rfl⟩, ?_⟩
    exact (Nat.zero_add _).symm ▸ inputSize.isLt
  refine ⟨fun round hround => hready.safe_of_lt hround, ?_⟩
  obtain ⟨chunks, next, hrounds, hbufs, hlengths, hcontiguous⟩ := hready.rounds
  have hbufs' : next.bufsVec = chunks := hbufs
  have hsum : (chunkLengths chunks).sum = inputSize.toNat := by
    rw [hlengths]
    exact sum_shares _ hbatch
  refine ⟨chunks, ?_, ?_, ?_, ?_, ?_, ?_⟩
  · have hassert : batchSize ≤ inputSize := hlength
    rw [regexChunks, if_pos hassert, hrounds, ← hbufs']
    rfl
  · rw [← length_shares batchSize.toNat inputSize.toNat]
    exact (List.length_map _).symm.trans (congrArg List.length hlengths)
  · rw [hsum] at hcontiguous
    exact Nat.zero_add inputSize.toNat ▸ hcontiguous
  · rw [hlengths]
    intro length hmem
    exact ge_of_mem_shares ((Nat.mul_one _).symm ▸ hlength) hmem
  · rw [hlengths]
    exact pairwise_shares _ _
  · rw [hlengths]
    intro first hfirst second hsecond
    exact shares_le_succ hfirst hsecond

/-- Ten bytes in four chunks: of three, three, two and two bytes. -/
theorem regexChunks_splitsEvenly_ten :
    regexChunks 4 10 = .ok [⟨0, 3⟩, ⟨3, 3⟩, ⟨6, 2⟩, ⟨8, 2⟩] ∧
      ∃ chunks, regexChunks 4 10 = .ok chunks ∧ SplitsEvenly chunks 4 10 :=
  ⟨by decide, (regexChunks_splitsEvenly (by decide) (by decide) (by decide)).2⟩

end BenchBF3.Jobs
