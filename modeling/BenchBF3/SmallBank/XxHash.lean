import Mathlib.Data.Fin.VecNotation
import BenchBF3.Foundation.Blocks
import BenchBF3.Foundation.Bytes
import BenchBF3.Foundation.Loops
import BenchBF3.Foundation.Mixing
import BenchBF3.SmallBank.Message

/-! # The server's hash

The server fills its hash table with a 64-bit hash of the account numbers, modulo
the number of entries. The hash reads its input in blocks of 32 bytes; a hasher
that gets its input in pieces buffers what does not fill a block. The buffer is
invisible: whatever the pieces, the result is that of the whole input. On keys of
eight bytes every step can be undone, so no two keys share a 64-bit hash. In the
table, accounts do share a value.
-/

namespace BenchBF3.SmallBank

open Foundation

/-- A hasher. Pointers into its input count from the first byte. -/
structure XXHash64 where
  state : Fin 4 → BitVec 64
  buffer : Buffer
  bufferSize : BitVec 64
  totalLength : BitVec 64

namespace XXHash64

def prime1 : BitVec 64 := 11400714785074694791
def prime2 : BitVec 64 := 14029467366897019727
def prime3 : BitVec 64 := 1609587929392839161
def prime4 : BitVec 64 := 9650029242287828579
def prime5 : BitVec 64 := 2870177450012600261

def maxBufferSize : Nat := 31 + 1

def rotateLeft (x : BitVec 64) (bits : Nat) : BitVec 64 := (x <<< bits) ||| (x >>> (64 - bits))

def processSingle (previous input : BitVec 64) : BitVec 64 :=
  rotateLeft (previous + input * prime2) 31 * prime1

def process (data : Buffer) (offset : Nat) (state : Fin 4 → BitVec 64) : Fin 4 → BitVec 64 :=
  fun lane => processSingle (state lane) (load64 data (offset + 8 * lane))

def initState (seed : BitVec 64) : Fin 4 → BitVec 64 :=
  ![seed + prime1 + prime2, seed + prime2, seed, seed - prime1]

/-- The constructor; it leaves the buffer as it finds it. -/
def init (buffer : Buffer) (seed : BitVec 64) : XXHash64 where
  state := initState seed
  buffer := buffer
  bufferSize := 0
  totalLength := 0

/-- Bytes of the input that go to the end of the buffer. -/
def putBytes (hasher : XXHash64) (input : Buffer) (count : Nat) : XXHash64 :=
  (List.range count).foldl (fun hasher index =>
    { hasher with
      buffer := Function.update hasher.buffer hasher.bufferSize.toNat (input index)
      bufferSize := hasher.bufferSize + 1 }) hasher

/-- The loop over the full blocks from `data` on; also where it stops. -/
def processBlocks (input : Buffer) (stop data : Nat) (state : Fin 4 → BitVec 64) :
    (Fin 4 → BitVec 64) × Nat :=
  if data + maxBufferSize ≤ stop then
    processBlocks input stop (data + 32) (process input data state)
  else (state, data)
termination_by stop - data
decreasing_by
  simp only [maxBufferSize] at *
  omega

/-- The bytes from `data` on, at the start of the buffer. -/
def keepRest (buffer input : Buffer) (data count : Nat) : Buffer :=
  (List.range count).foldl (fun buffer index => Function.update buffer index (input (data + index)))
    buffer

/-- What is left from previous pieces comes first, once it fills a block; also
the number of bytes that took. -/
def firstBlock (hasher : XXHash64) (input : Buffer) : XXHash64 × Nat :=
  if (0 : BitVec 64) < hasher.bufferSize then
    let missing := maxBufferSize - hasher.bufferSize.toNat
    let full := hasher.putBytes input missing
    ({ full with state := process full.buffer 0 full.state }, missing)
  else (hasher, 0)

/-- A piece that fills a block: full blocks are processed, the rest is kept. -/
def addBlocks (hasher : XXHash64) (input : Buffer) (stop : Nat) : XXHash64 :=
  let first := hasher.firstBlock input
  let blocks := processBlocks input stop first.2 first.1.state
  { first.1 with
    state := blocks.1
    buffer := keepRest first.1.buffer input blocks.2 (stop - blocks.2)
    bufferSize := BitVec.ofNat 64 (stop - blocks.2) }

def add (hasher : XXHash64) (input : Option Buffer) (length : BitVec 64) : Bool × XXHash64 :=
  match input with
  | none => (false, hasher)
  | some input =>
      if length = 0 then (false, hasher)
      else
        let hasher := { hasher with totalLength := hasher.totalLength + length }
        if hasher.bufferSize + length < BitVec.ofNat 64 maxBufferSize then
          (true, hasher.putBytes input length.toNat)
        else (true, hasher.addBlocks input length.toNat)

/-- The loop that eats eight bytes per step; also where it stops. -/
def eatWords (buffer : Buffer) (stop data : Nat) (result : BitVec 64) : BitVec 64 × Nat :=
  if data + 8 ≤ stop then
    eatWords buffer stop (data + 8)
      (rotateLeft (result ^^^ processSingle 0 (load64 buffer data)) 27 * prime1 + prime4)
  else (result, data)
termination_by stop - data

/-- The step for four bytes, if as many are left. -/
def eatHalf (buffer : Buffer) (stop : Nat) (result : BitVec 64 × Nat) : BitVec 64 × Nat :=
  if result.2 + 4 ≤ stop then
    let word := (loadWord buffer result.2 4).setWidth 64
    (rotateLeft (result.1 ^^^ word * prime1) 23 * prime2 + prime3, result.2 + 4)
  else result

def eatBytes (buffer : Buffer) (stop : Nat) (result : BitVec 64 × Nat) : BitVec 64 :=
  (List.range (stop - result.2)).foldl (fun value index =>
    rotateLeft (value ^^^ (buffer (result.2 + index)).setWidth 64 * prime5) 11 * prime1) result.1

/-- The last mixing of the bits. -/
def mixBits (result : BitVec 64) : BitVec 64 :=
  let result := result ^^^ (result >>> 33)
  let result := result * prime2
  let result := result ^^^ (result >>> 29)
  let result := result * prime3
  result ^^^ (result >>> 32)

/-- The four lanes as one word. -/
def foldState (state : Fin 4 → BitVec 64) : BitVec 64 :=
  let result := rotateLeft (state 0) 1 + rotateLeft (state 1) 7 + rotateLeft (state 2) 12 +
    rotateLeft (state 3) 18
  (List.finRange 4).foldl (fun result lane =>
    (result ^^^ processSingle 0 (state lane)) * prime1 + prime4) result

def hash (hasher : XXHash64) : BitVec 64 :=
  let result :=
    if BitVec.ofNat 64 maxBufferSize ≤ hasher.totalLength then foldState hasher.state
    else hasher.state 2 + prime5
  let stop := hasher.bufferSize.toNat
  mixBits (eatBytes hasher.buffer stop (eatHalf hasher.buffer stop
    (eatWords hasher.buffer stop 0 (result + hasher.totalLength))))

/-- The static function: a fresh hasher for one input. -/
def hashOnce (buffer : Buffer) (input : Option Buffer) (length seed : BitVec 64) : BitVec 64 :=
  ((init buffer seed).add input length).2.hash

/-- One block, as a list of its bytes. -/
def absorb (state : Fin 4 → BitVec 64) (block : List (BitVec 8)) : Fin 4 → BitVec 64 :=
  process (writeBytes 0 block) 0 state

/-- What a hasher keeps of the bytes it was given: the lanes have every full
block, the buffer has the rest. -/
structure Holds (seed : BitVec 64) (bytes : List (BitVec 8)) (hasher : XXHash64) : Prop where
  state : hasher.state = consume maxBufferSize absorb (initState seed) bytes
  buffered : readBytes hasher.buffer hasher.bufferSize.toNat = leftover maxBufferSize bytes

section Loops

variable {hasher : XXHash64} {input : Buffer} {stop data : Nat}

theorem process_eq_absorb (state : Fin 4 → BitVec 64) (hblock : data + maxBufferSize ≤ stop) :
    process input data state =
      absorb state (((readBytes input stop).drop data).take maxBufferSize) := by
  funext lane
  apply congrArg (processSingle (state lane))
  apply loadWord_congr
  intro index hindex
  have hlane : 8 * lane.val + index < maxBufferSize := by
    have := lane.isLt
    simp only [maxBufferSize]
    omega
  have hstop : data + (8 * lane.val + index) < stop := by omega
  simp [writeBytes, readBytes, Nat.add_assoc, hlane, hstop]

theorem processBlocks_spec (state : Fin 4 → BitVec 64) (hdata : data ≤ stop) :
    (processBlocks input stop data state).1 =
        consume maxBufferSize absorb state ((readBytes input stop).drop data) ∧
      (readBytes input stop).drop (processBlocks input stop data state).2 =
        leftover maxBufferSize ((readBytes input stop).drop data) ∧
      (processBlocks input stop data state).2 ≤ stop := by
  induction data, state using processBlocks.induct (input) (stop) with
  | case1 data state hblock ih =>
      have hrest : (readBytes input stop).drop data =
          ((readBytes input stop).drop data).take maxBufferSize ++
            (readBytes input stop).drop (data + 32) := by
        rw [← List.drop_drop]
        exact (List.take_append_drop _ _).symm
      have hlength : (((readBytes input stop).drop data).take maxBufferSize).length =
          maxBufferSize := by
        apply List.length_take_of_le
        rw [List.length_drop, length_readBytes]
        omega
      rw [processBlocks, if_pos hblock, hrest, consume_block_append (by decide) hlength,
        leftover_block_append (by decide) hlength, ← process_eq_absorb state hblock]
      exact ih hblock
  | case2 data state hblock =>
      have hshort : ((readBytes input stop).drop data).length < maxBufferSize := by
        rw [List.length_drop, length_readBytes]
        omega
      rw [processBlocks, if_neg hblock, consume_of_lt hshort, leftover_of_lt hshort]
      exact ⟨rfl, rfl, hdata⟩

theorem putBytes_succ (hasher : XXHash64) (input : Buffer) (count : Nat) :
    hasher.putBytes input (count + 1) =
      { hasher.putBytes input count with
        buffer := Function.update (hasher.putBytes input count).buffer
          (hasher.putBytes input count).bufferSize.toNat (input count)
        bufferSize := (hasher.putBytes input count).bufferSize + 1 } :=
  foldl_range_succ _ _ _

theorem putBytes_spec {count : Nat} (hfits : hasher.bufferSize.toNat + count < 2 ^ 64) :
    (hasher.putBytes input count).bufferSize.toNat = hasher.bufferSize.toNat + count ∧
      readBytes (hasher.putBytes input count).buffer (hasher.bufferSize.toNat + count) =
        readBytes hasher.buffer hasher.bufferSize.toNat ++ readBytes input count ∧
      (hasher.putBytes input count).state = hasher.state ∧
      (hasher.putBytes input count).totalLength = hasher.totalLength := by
  induction count with
  | zero => simp [putBytes, readBytes]
  | succ count ih =>
      obtain ⟨hsize, hbytes, hstate, htotal⟩ := ih (by omega)
      rw [putBytes_succ]
      dsimp only
      refine ⟨?_, ?_, hstate, htotal⟩
      · have hone : (1 : BitVec 64).toNat = 1 := rfl
        rw [BitVec.toNat_add, hsize, hone, Nat.mod_eq_of_lt (by omega), Nat.add_assoc]
      · rw [← Nat.add_assoc, readBytes_succ, readBytes_succ, ← List.append_assoc, ← hbytes, hsize,
          readBytes_update_of_le le_rfl, Function.update_self]

theorem readBytes_keepRest (buffer input : Buffer) (data count : Nat) :
    readBytes (keepRest buffer input data count) count =
      (readBytes input (data + count)).drop data := by
  induction count with
  | zero => simp [readBytes]
  | succ count ih =>
      have hround : keepRest buffer input data (count + 1) =
          Function.update (keepRest buffer input data count) count (input (data + count)) :=
        foldl_range_succ _ _ _
      have hdrop : ((readBytes input (data + count)) ++ [input (data + count)]).drop data =
          (readBytes input (data + count)).drop data ++ [input (data + count)] := by
        apply List.drop_append_of_le_length
        rw [length_readBytes]
        exact Nat.le_add_right _ _
      rw [hround, readBytes_succ, readBytes_update_of_le le_rfl, Function.update_self, ih,
        ← Nat.add_assoc, readBytes_succ, hdrop]

theorem firstBlock_of_empty (hempty : hasher.bufferSize.toNat = 0) :
    hasher.firstBlock input = (hasher, 0) := by
  apply if_neg
  rw [BitVec.not_lt, BitVec.le_def, hempty]
  exact Nat.zero_le _

theorem firstBlock_of_pos {missing : Nat} (hpos : 0 < hasher.bufferSize.toNat)
    (hmissing : maxBufferSize - hasher.bufferSize.toNat = missing) :
    hasher.firstBlock input =
      ({ hasher.putBytes input missing with
        state := process (hasher.putBytes input missing).buffer 0
          (hasher.putBytes input missing).state }, missing) := by
  subst hmissing
  apply if_pos
  rw [BitVec.lt_def]
  exact hpos

/-- The buffered bytes and the first missing ones make a block; without buffered
bytes there is nothing to complete. -/
theorem firstBlock_spec {kept : List (BitVec 8)}
    (hkept : readBytes hasher.buffer hasher.bufferSize.toNat = kept)
    (hshort : hasher.bufferSize.toNat < maxBufferSize)
    (hlong : maxBufferSize ≤ hasher.bufferSize.toNat + stop) :
    consume maxBufferSize absorb hasher.state (kept ++ readBytes input stop) =
        consume maxBufferSize absorb (hasher.firstBlock input).1.state
          ((readBytes input stop).drop (hasher.firstBlock input).2) ∧
      leftover maxBufferSize (kept ++ readBytes input stop) =
        leftover maxBufferSize ((readBytes input stop).drop (hasher.firstBlock input).2) ∧
      (hasher.firstBlock input).2 ≤ stop ∧
      (hasher.firstBlock input).1.totalLength = hasher.totalLength := by
  have hlength : kept.length = hasher.bufferSize.toNat := by
    rw [← hkept, length_readBytes]
  by_cases hempty : hasher.bufferSize.toNat = 0
  · rw [firstBlock_of_empty hempty, List.eq_nil_of_length_eq_zero (hlength.trans hempty),
      List.nil_append, List.drop_zero]
    exact ⟨rfl, rfl, Nat.zero_le stop, rfl⟩
  · obtain ⟨missing, hmissing⟩ : ∃ missing, maxBufferSize - hasher.bufferSize.toNat = missing :=
      ⟨_, rfl⟩
    have hfirst := @firstBlock_of_pos hasher input missing (Nat.pos_of_ne_zero hempty) hmissing
    have hsum : hasher.bufferSize.toNat + missing = maxBufferSize := by omega
    obtain ⟨-, hfull, hstate, htotal⟩ := @putBytes_spec hasher input missing
      (by rw [hsum, maxBufferSize]; omega)
    have hblock : (kept ++ readBytes input missing).length = maxBufferSize := by
      rw [List.length_append, length_readBytes, hlength, hsum]
    have hprocessed : (hasher.firstBlock input).1.state =
        absorb hasher.state (kept ++ readBytes input missing) := by
      rw [hsum, hkept] at hfull
      rw [hfirst]
      dsimp only
      rw [hstate, process_eq_absorb _ (Nat.zero_add maxBufferSize).le, List.drop_zero,
        hfull, List.take_of_length_le hblock.le]
    have htaken : (hasher.firstBlock input).2 = missing := by rw [hfirst]
    have hcounted : (hasher.firstBlock input).1.totalLength = hasher.totalLength := by
      simp only [hfirst, htotal]
    have hsplit : kept ++ readBytes input stop =
        (kept ++ readBytes input missing) ++ (readBytes input stop).drop missing := by
      have htake := @take_readBytes input missing stop (by omega)
      rw [List.append_assoc, ← htake, List.take_append_drop]
    rw [hprocessed, htaken, hsplit, consume_block_append (by decide) hblock,
      leftover_block_append (by decide) hblock]
    exact ⟨rfl, rfl, by omega, hcounted⟩

end Loops

section Pieces

variable {seed : BitVec 64} {bytes : List (BitVec 8)} {hasher other : XXHash64} {input : Buffer}
  {length : BitVec 64} {stop : Nat}

theorem init_holds (buffer : Buffer) (seed : BitVec 64) : (init buffer seed).Holds seed [] where
  state := rfl
  buffered := rfl

theorem Holds.bufferSize_eq (hholds : hasher.Holds seed bytes) :
    hasher.bufferSize.toNat = (leftover maxBufferSize bytes).length := by
  rw [← hholds.buffered, length_readBytes]

theorem Holds.bufferSize_lt (hholds : hasher.Holds seed bytes) :
    hasher.bufferSize.toNat < maxBufferSize := by
  rw [hholds.bufferSize_eq]
  exact length_leftover_lt (by decide) bytes

theorem Holds.bufferSize_le (hholds : hasher.Holds seed bytes) :
    hasher.bufferSize.toNat ≤ bytes.length := by
  rw [hholds.bufferSize_eq, leftover, List.length_drop]
  exact Nat.sub_le _ _

/-- A piece that does not fill a block is kept. -/
theorem Holds.putBytes (hholds : hasher.Holds seed bytes)
    (hshort : hasher.bufferSize.toNat + stop < maxBufferSize) :
    (hasher.putBytes input stop).Holds seed (bytes ++ readBytes input stop) := by
  obtain ⟨hsize, hbytes, hstate, -⟩ := @putBytes_spec hasher input stop
    (hshort.trans (by rw [maxBufferSize]; omega))
  obtain ⟨hconsume, hleftover⟩ := @consume_append _ _ maxBufferSize absorb (by decide)
    (initState seed) bytes (readBytes input stop)
  have hlength : (leftover maxBufferSize bytes ++ readBytes input stop).length < maxBufferSize := by
    rw [List.length_append, ← hholds.bufferSize_eq, length_readBytes]
    exact hshort
  constructor
  · rw [hstate, hconsume, consume_of_lt hlength, hholds.state]
  · rw [hsize, hbytes, hleftover, leftover_of_lt hlength, hholds.buffered]

/-- A piece that fills a block is processed up to its last full block. -/
theorem Holds.addBlocks (hholds : hasher.Holds seed bytes)
    (hlong : maxBufferSize ≤ hasher.bufferSize.toNat + stop) (hstop : stop < 2 ^ 64) :
    (hasher.addBlocks input stop).Holds seed (bytes ++ readBytes input stop) := by
  obtain ⟨hconsume, hleftover⟩ := @consume_append _ _ maxBufferSize absorb (by decide)
    (initState seed) bytes (readBytes input stop)
  obtain ⟨hfirst, hrest, hle, -⟩ :=
    @firstBlock_spec hasher input stop _ hholds.buffered hholds.bufferSize_lt hlong
  obtain ⟨hblocks, hkept, hend⟩ :=
    @processBlocks_spec input stop _ (hasher.firstBlock input).1.state hle
  constructor
  · rw [hconsume, ← hholds.state, hfirst]
    exact hblocks
  · have hsize : (hasher.addBlocks input stop).bufferSize.toNat = stop -
        (processBlocks input stop (hasher.firstBlock input).2
          (hasher.firstBlock input).1.state).2 := by
      rw [XXHash64.addBlocks, BitVec.toNat_ofNat]
      exact Nat.mod_eq_of_lt (by omega)
    rw [hsize, XXHash64.addBlocks, readBytes_keepRest, Nat.add_sub_cancel' hend, hkept, ← hrest,
      hleftover]

theorem addBlocks_totalLength (hholds : hasher.Holds seed bytes)
    (hlong : maxBufferSize ≤ hasher.bufferSize.toNat + stop) :
    (hasher.addBlocks input stop).totalLength = hasher.totalLength :=
  (@firstBlock_spec hasher input stop _ hholds.buffered hholds.bufferSize_lt hlong).2.2.2

theorem add_of_length_zero (hasher : XXHash64) (input : Option Buffer) :
    (hasher.add input 0).2 = hasher := by
  cases input with
  | none => rfl
  | some input => rfl

/-- One call of `add`, whatever its piece. -/
theorem Holds.add (hholds : hasher.Holds seed bytes)
    (hrange : bytes.length + length.toNat < 2 ^ 64) :
    (hasher.add (some input) length).2.Holds seed (bytes ++ readBytes input length.toNat) ∧
      (hasher.add (some input) length).2.totalLength = hasher.totalLength + length := by
  by_cases hzero : length = 0
  · subst hzero
    rw [add_of_length_zero]
    refine ⟨?_, (add_zero _).symm⟩
    have hnothing : readBytes input (0 : BitVec 64).toNat = [] := rfl
    rwa [hnothing, List.append_nil]
  · have hcounted : ({ hasher with totalLength := hasher.totalLength + length } :
        XXHash64).Holds seed bytes := ⟨hholds.state, hholds.buffered⟩
    have hsize := hholds.bufferSize_le
    have hsum : (hasher.bufferSize + length).toNat = hasher.bufferSize.toNat + length.toNat := by
      rw [BitVec.toNat_add]
      exact Nat.mod_eq_of_lt (by omega)
    have hbound : (BitVec.ofNat 64 maxBufferSize).toNat = maxBufferSize := rfl
    simp only [XXHash64.add, if_neg hzero]
    split
    next hfits =>
      rw [BitVec.lt_def, hsum, hbound] at hfits
      exact ⟨hcounted.putBytes hfits,
        (@putBytes_spec { hasher with totalLength := hasher.totalLength + length } input _
          (hfits.trans (by rw [maxBufferSize]; omega))).2.2.2⟩
    next hfills =>
      rw [BitVec.not_lt, BitVec.le_def, hsum, hbound] at hfills
      exact ⟨hcounted.addBlocks hfills length.isLt, addBlocks_totalLength hcounted hfills⟩

/-- The bytes that a call of `add` is given; a null pointer gives none. -/
def pieceBytes : Option Buffer × BitVec 64 → List (BitVec 8)
  | (none, _) => []
  | (some input, length) => readBytes input length.toNat

/-- A sequence of calls of `add`. -/
def addAll (hasher : XXHash64) (pieces : List (Option Buffer × BitVec 64)) : XXHash64 :=
  pieces.foldl (fun hasher piece => (hasher.add piece.1 piece.2).2) hasher

theorem Holds.addAll {pieces : List (Option Buffer × BitVec 64)} (hholds : hasher.Holds seed bytes)
    (htotal : hasher.totalLength = BitVec.ofNat 64 bytes.length)
    (hrange : (bytes ++ pieces.flatMap pieceBytes).length < 2 ^ 64) :
    (hasher.addAll pieces).Holds seed (bytes ++ pieces.flatMap pieceBytes) ∧
      (hasher.addAll pieces).totalLength =
        BitVec.ofNat 64 (bytes ++ pieces.flatMap pieceBytes).length := by
  induction pieces generalizing hasher bytes with
  | nil =>
      rw [List.flatMap_nil, List.append_nil]
      exact ⟨hholds, htotal⟩
  | cons piece pieces ih =>
      rw [List.flatMap_cons, ← List.append_assoc] at hrange ⊢
      rw [XXHash64.addAll, List.foldl_cons]
      obtain ⟨input, length⟩ := piece
      cases input with
      | none =>
          rw [pieceBytes, List.append_nil] at hrange ⊢
          exact ih hholds htotal hrange
      | some input =>
          rw [pieceBytes] at hrange ⊢
          have hpiece : bytes.length + length.toNat < 2 ^ 64 := by
            rw [List.length_append, List.length_append, length_readBytes] at hrange
            omega
          obtain ⟨hnext, hcount⟩ := @Holds.add seed bytes hasher input length hholds hpiece
          refine ih hnext ?_ hrange
          rw [hcount, htotal, List.length_append, length_readBytes, BitVec.ofNat_add,
            BitVec.ofNat_toNat, BitVec.setWidth_eq]

end Pieces

section Result

variable {buffer other : Buffer} {stop : Nat}

theorem eatWords_congr (hsame : ∀ position < stop, buffer position = other position) (data : Nat)
    (result : BitVec 64) : eatWords buffer stop data result = eatWords other stop data result := by
  induction data, result using eatWords.induct buffer stop with
  | case1 data result hword ih =>
      have hload : load64 buffer data = load64 other data :=
        loadWord_congr fun index hindex => hsame _ (by omega)
      rw [eatWords, if_pos hword, ih, hload]
      conv_rhs => rw [eatWords, if_pos hword]
  | case2 data result hword =>
      rw [eatWords, if_neg hword, eatWords, if_neg hword]

theorem eatHalf_congr (hsame : ∀ position < stop, buffer position = other position)
    (result : BitVec 64 × Nat) : eatHalf buffer stop result = eatHalf other stop result := by
  rw [eatHalf, eatHalf]
  split
  next hhalf =>
    have hload : loadWord buffer result.2 4 = loadWord other result.2 4 :=
      loadWord_congr fun index hindex => hsame _ (by omega)
    rw [hload]
  next => rfl

theorem eatBytes_congr (hsame : ∀ position < stop, buffer position = other position)
    (result : BitVec 64 × Nat) : eatBytes buffer stop result = eatBytes other stop result := by
  apply List.foldl_ext
  intro value index hindex
  rw [hsame (result.2 + index) (by have := List.mem_range.mp hindex; omega)]

/-- The hash depends on the lanes, on the buffered bytes and on the length. -/
theorem hash_congr {hasher twin : XXHash64} (hstate : hasher.state = twin.state)
    (hbuffer : readBytes hasher.buffer hasher.bufferSize.toNat =
      readBytes twin.buffer twin.bufferSize.toNat)
    (htotal : hasher.totalLength = twin.totalLength) : hasher.hash = twin.hash := by
  have hsize : hasher.bufferSize.toNat = twin.bufferSize.toNat := by
    have hlength := congrArg List.length hbuffer
    rwa [length_readBytes, length_readBytes] at hlength
  rw [hsize, readBytes_eq_iff] at hbuffer
  rw [hash, hash, hstate, htotal, hsize, eatWords_congr hbuffer, eatHalf_congr hbuffer,
    eatBytes_congr hbuffer]

end Result

/-- Whatever the pieces, the hasher returns the hash of the whole message. -/
theorem hash_addAll (buffer once : Buffer) (seed : BitVec 64)
    (pieces : List (Option Buffer × BitVec 64)) (message : Buffer) (length : BitVec 64)
    (hmessage : readBytes message length.toNat = pieces.flatMap pieceBytes) :
    ((init buffer seed).addAll pieces).hash = hashOnce once (some message) length seed := by
  have hlength : (pieces.flatMap pieceBytes).length = length.toNat := by
    rw [← hmessage, length_readBytes]
  have hrange : ([] ++ pieces.flatMap pieceBytes).length < 2 ^ 64 := by
    rw [List.nil_append, hlength]
    exact length.isLt
  obtain ⟨hpieces, hcount⟩ := (init_holds buffer seed).addAll rfl hrange
  obtain ⟨hwhole, htotal⟩ := @Holds.add seed [] (init once seed) message length
    (init_holds once seed) (by rw [List.length_nil, Nat.zero_add]; exact length.isLt)
  rw [hmessage] at hwhole
  apply hash_congr
  · rw [hpieces.state, hwhole.state]
  · rw [hpieces.buffered, hwhole.buffered]
  · rw [hcount, htotal, List.nil_append, hlength, BitVec.ofNat_toNat, BitVec.setWidth_eq]
    exact (BitVec.zero_add length).symm

/-- A message of fifty bytes that counts them. -/
def countingBytes : Buffer := fun position => BitVec.ofNat 8 position

/-- Two pieces whose border lies inside the first block, with a null call between. -/
theorem hash_addAll_twoPieces :
    ((init 0 7).addAll [(some countingBytes, 20), (none, 5),
        (some fun position => countingBytes (20 + position), 30)]).hash =
      hashOnce 0 (some countingBytes) 50 7 :=
  hash_addAll 0 0 7 _ countingBytes 50 (by decide)

section Keys

open Function

theorem rotateLeft_injective {bits : Nat} (hbits : bits < 64) :
    Injective fun word => rotateLeft word bits :=
  rotate_injective hbits

theorem mul_prime1_injective : Injective fun word : BitVec 64 => word * prime1 :=
  @mul_injective_of_mul_eq_one 64 prime1 614540362697595703 (by decide)

theorem mul_prime2_injective : Injective fun word : BitVec 64 => word * prime2 :=
  @mul_injective_of_mul_eq_one 64 prime2 839798700976720815 (by decide)

theorem mul_prime3_injective : Injective fun word : BitVec 64 => word * prime3 :=
  @mul_injective_of_mul_eq_one 64 prime3 16855272203555305545 (by decide)

theorem mixBits_injective : Injective mixBits := by
  have hlast : Injective fun word : BitVec 64 => word ^^^ word >>> 32 :=
    xor_ushiftRight_injective (by decide)
  have hmiddle : Injective fun word : BitVec 64 => word ^^^ word >>> 29 :=
    xor_ushiftRight_injective (by decide)
  have hfirst : Injective fun word : BitVec 64 => word ^^^ word >>> 33 :=
    xor_ushiftRight_injective (by decide)
  exact hlast.comp (mul_prime3_injective.comp (hmiddle.comp (mul_prime2_injective.comp hfirst)))

theorem processSingle_injective (previous : BitVec 64) : Injective (processSingle previous) :=
  mul_prime1_injective.comp ((rotateLeft_injective (by decide)).comp
    ((add_right_injective previous).comp mul_prime2_injective))

/-- The one step for an input of eight bytes. -/
def keyStep (seed word : BitVec 64) : BitVec 64 :=
  rotateLeft ((seed + prime5 + 8) ^^^ processSingle 0 word) 27 * prime1 + prime4

theorem keyStep_injective (seed : BitVec 64) : Injective (keyStep seed) := by
  have hxor : Injective fun word : BitVec 64 => (seed + prime5 + 8) ^^^ word :=
    fun _ _ => (BitVec.xor_right_inj _).mp
  exact (add_left_injective prime4).comp (mul_prime1_injective.comp
    ((rotateLeft_injective (by decide)).comp (hxor.comp (processSingle_injective 0))))

theorem hash_of_eight {hasher : XXHash64} (hsize : hasher.bufferSize.toNat = 8)
    (htotal : hasher.totalLength = 8) :
    hasher.hash = mixBits (keyStep (hasher.state 2) (load64 hasher.buffer 0)) := by
  have hwords (result : BitVec 64) : eatWords hasher.buffer 8 0 result =
      (rotateLeft (result ^^^ processSingle 0 (load64 hasher.buffer 0)) 27 * prime1 + prime4,
        8) := by
    rw [eatWords, if_pos (by decide), eatWords, if_neg (by decide)]
  have hhalf (result : BitVec 64) : eatHalf hasher.buffer 8 (result, 8) = (result, 8) :=
    if_neg (by decide : ¬ 8 + 4 ≤ 8)
  rw [hash, hsize, htotal, if_neg (by decide), hwords, hhalf]
  rfl

theorem hashOnce_key (buffer input : Buffer) (seed : BitVec 64) :
    hashOnce buffer (some input) 8 seed = mixBits (keyStep seed (load64 input 0)) := by
  -- Eight bytes do not fill a block: they are what the buffer holds.
  obtain ⟨counted, hcounted⟩ : ∃ counted : XXHash64,
      counted = { init buffer seed with totalLength := 0 + 8 } := ⟨_, rfl⟩
  have hadd : ((init buffer seed).add (some input) 8).2 = counted.putBytes input 8 := by
    rw [hcounted]
    rfl
  have hempty : counted.bufferSize.toNat = 0 := by
    rw [hcounted]
    rfl
  obtain ⟨hsize, hbytes, hstate, htotal⟩ := @putBytes_spec counted input 8
    (by rw [hempty]; decide)
  rw [hempty] at hsize hbytes
  have hload : load64 (counted.putBytes input 8).buffer 0 = load64 input 0 := by
    apply loadWord_congr
    intro index hindex
    rw [Nat.zero_add]
    exact readBytes_eq_iff.mp hbytes index hindex
  have hseed : (counted.putBytes input 8).state 2 = seed := by
    rw [hstate, hcounted]
    rfl
  rw [hashOnce, hadd, hash_of_eight hsize (htotal.trans (by rw [hcounted]; rfl)), hload, hseed]

/-- No two keys of eight bytes share a hash, under any seed. -/
theorem hashOnce_injective (buffer rest : Buffer) (seed : BitVec 64) :
    Injective fun key => hashOnce buffer (some (store64 rest 0 key)) 8 seed := by
  intro first second heq
  simp only [hashOnce_key, load64_store64] at heq
  exact keyStep_injective seed (mixBits_injective heq)

/-- What `init_hash_table` stores for an account. The other two arguments are what was
in memory before. -/
def hashTableGlobal (buffer rest : Buffer) (account : BitVec 64) : BitVec 64 :=
  hashOnce buffer (some (store64 rest 0 account)) 8 0 % BitVec.ofNat 64 numEntry

theorem hashTableGlobal_lt (buffer rest : Buffer) (account : BitVec 64) :
    (hashTableGlobal buffer rest account).toNat < numEntry := by
  rw [hashTableGlobal, BitVec.toNat_umod]
  exact Nat.mod_lt _ (by decide)

/-- The remainder of the hash does not tell all accounts apart: two of them have 278630. -/
theorem hashTableGlobal_not_injOn (buffer rest : Buffer) :
    ¬Set.InjOn (hashTableGlobal buffer rest) {account | account.toNat < numAccounts} := by
  intro hinjective
  have hentry : hashTableGlobal buffer rest 226 = hashTableGlobal buffer rest 1367 := by
    simp only [hashTableGlobal, hashOnce_key, load64_store64]
    decide
  have hsame := hinjective (by decide : (226 : BitVec 64).toNat < numAccounts)
    (by decide : (1367 : BitVec 64).toNat < numAccounts) hentry
  exact absurd hsame (by decide)

end Keys

end XXHash64

end BenchBF3.SmallBank
