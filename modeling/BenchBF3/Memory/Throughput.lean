import Mathlib.Algebra.Order.Floor.Div
import Mathlib.Data.BitVec
import BenchBF3.Foundation.Ints

/-! # The throughput of the memory benchmark

`bench_mem_read` and `bench_mem_write` walk over an array with a stride, some number of
times, and report bytes per second. The bytes times the clock rate are formed in 64 bits
before the two divisions. The report is exact when this product fits. When it does not, a
whole multiple of 2^64 is lost, which a quotient hides only if the exact one is zero as well.
The caps of `host_func` leave sizes for which the product does not fit.
-/

namespace BenchBF3.Memory

open Foundation

/-! ## The device -/

/-- The indices of one pass with a positive stride. The bound is a `long`, and one that
is not positive leaves none. -/
def strided (numEle : BitVec 64) (stride : BitVec 32) : List Nat :=
  List.range' 0 (numEle.toInt.toNat ⌈/⌉ stride.toNat) stride.toNat

/-- The loops end: there is nothing to do, or each step moves forward. -/
def LoopsEnd (numEle : BitVec 64) (stride : BitVec 32) (loop : BitVec 64) : Prop :=
  loop = 0 ∨ numEle.toInt ≤ 0 ∨ 0 < stride.toInt

instance decidableLoopsEnd (numEle : BitVec 64) (stride : BitVec 32) (loop : BitVec 64) :
    Decidable (LoopsEnd numEle stride loop) :=
  inferInstanceAs (Decidable (_ ∨ _))

/-- The expression both functions return; a division by zero has no result. -/
def throughput (numEle : BitVec 64) (stride : BitVec 32) (loop totalCycles : BitVec 64) :
    Option (BitVec 64) :=
  if stride = 0 ∨ totalCycles = 0 then none
  else some (loop * numEle * 8 * 1800000000 / toSize stride / totalCycles)

/-- The sum starts with whatever is on the stack. -/
def benchMemRead (data : Nat → BitVec 64) (sum numEle : BitVec 64) (stride : BitVec 32)
    (loop start stop : BitVec 64) : Option (BitVec 64 × BitVec 64) :=
  if LoopsEnd numEle stride loop then
    let sum := (List.range loop.toNat).foldl (fun sum _ =>
      (strided numEle stride).foldl (fun sum i => sum + data i) sum) sum
    (throughput numEle stride loop (stop - start)).map fun result => (sum, result)
  else none

def benchMemWrite (data : Nat → BitVec 64) (numEle : BitVec 64) (stride : BitVec 32)
    (loop start stop : BitVec 64) : Option ((Nat → BitVec 64) × BitVec 64) :=
  if LoopsEnd numEle stride loop then
    let data := (List.range loop.toNat).foldl (fun data loopNum =>
      (strided numEle stride).foldl
        (fun data i => Function.update data i (BitVec.ofNat 64 loopNum)) data) data
    (throughput numEle stride loop (stop - start)).map fun result => (data, result)
  else none

inductive MemType where
  | hostMem
  | privateMem
  deriving DecidableEq

structure MemoryArg where
  streamId : BitVec 32
  memType : MemType
  size : BitVec 64
  stride : BitVec 32
  loop : BitVec 64
  deriving DecidableEq

def MemoryArg.numEle (arg : MemoryArg) : BitVec 64 := arg.size / 8

/-- The results of all threads, by stream. -/
structure MemResults where
  dpaMemResult : BitVec 32 → BitVec 64
  hostMemResult : BitVec 32 → BitVec 64

def benchFunc (arg : MemoryArg) (data : Nat → BitVec 64) (start stop : BitVec 64)
    (results : MemResults) : Option ((Nat → BitVec 64) × MemResults) := do
  let (data, result) ← benchMemWrite data arg.numEle arg.stride arg.loop start stop
  match arg.memType with
  | .hostMem => return (data, { results with
      hostMemResult := Function.update results.hostMemResult arg.streamId result })
  | .privateMem => return (data, { results with
      dpaMemResult := Function.update results.dpaMemResult arg.streamId result })

/-! ## The host -/

/-- The loops that halve a size until all threads together are under the limit. -/
def capMemSize (limit : BitVec 64) (threads : BitVec 32) (memSize : BitVec 64) : BitVec 64 :=
  if memSize * toSize threads > limit then capMemSize limit threads (memSize / 2) else memSize
termination_by memSize.toNat
decreasing_by
  rename_i hover
  have hne : memSize.toNat ≠ 0 := by
    intro hzero
    rw [gt_iff_lt, BitVec.lt_def, BitVec.toNat_mul, hzero, Nat.zero_mul] at hover
    exact Nat.not_lt_zero _ hover
  rw [BitVec.toNat_udiv]
  exact Nat.div_lt_self (Nat.pos_of_ne_zero hne) (by decide)

structure Flags where
  stride : BitVec 32
  threadsPrivate : BitVec 32
  threadsHost : BitVec 32
  memHost : BitVec 64
  memPrivate : BitVec 64
  loop : BitVec 64

def maxHost : BitVec 64 := 16 * 1024 * 1024 * 1024

def maxPrivate : BitVec 64 := 512 * 1024 * 1024

def Flags.memSizeHost (flags : Flags) : BitVec 64 :=
  capMemSize maxHost flags.threadsHost flags.memHost

def Flags.memSizePrivate (flags : Flags) : BitVec 64 :=
  capMemSize maxPrivate flags.threadsPrivate flags.memPrivate

/-- The arguments of all tasks, after the check in `main`. -/
def hostFunc (flags : Flags) : Option (List MemoryArg) :=
  if 0 < flags.threadsHost.toInt + flags.threadsPrivate.toInt then
    some ((List.range flags.threadsHost.toInt.toNat).map (fun i =>
        { streamId := BitVec.ofNat 32 i, memType := .hostMem, size := flags.memSizeHost
          stride := flags.stride, loop := flags.loop }) ++
      (List.range flags.threadsPrivate.toInt.toNat).map (fun i =>
        { streamId := flags.threadsHost + BitVec.ofNat 32 i, memType := .privateMem
          size := flags.memSizePrivate, stride := flags.stride, loop := flags.loop }))
  else none

/-! ## The caps -/

theorem capMemSize_le (limit : BitVec 64) (threads : BitVec 32) (memSize : BitVec 64) :
    capMemSize limit threads memSize * toSize threads ≤ limit := by
  induction memSize using capMemSize.induct limit threads with
  | case1 memSize hover ih =>
      rw [capMemSize, if_pos hover]
      exact ih
  | case2 memSize hunder =>
      rw [capMemSize, if_neg hunder]
      exact BitVec.not_lt.mp hunder

/-- All sizes that reach the device are under the caps, in 64-bit arithmetic. -/
theorem hostFunc_admitted {flags : Flags} {args : List MemoryArg}
    (hargs : hostFunc flags = some args) (arg : MemoryArg) (hmem : arg ∈ args) :
    (arg.memType = .hostMem → arg.size * toSize flags.threadsHost ≤ maxHost) ∧
      (arg.memType = .privateMem → arg.size * toSize flags.threadsPrivate ≤ maxPrivate) := by
  unfold hostFunc at hargs
  split at hargs
  next =>
    obtain rfl := Option.some.inj hargs
    rcases List.mem_append.mp hmem with hhost | hprivate
    · obtain ⟨i, -, rfl⟩ := List.mem_map.mp hhost
      exact ⟨fun _ => capMemSize_le _ _ _, nofun⟩
    · obtain ⟨i, -, rfl⟩ := List.mem_map.mp hprivate
      exact ⟨nofun, fun _ => capMemSize_le _ _ _⟩
  next => exact absurd hargs (by simp)

/-! ## The product -/

/-- The result without the limits of the machine. -/
def exactThroughput (numEle stride loop totalCycles : Nat) : Nat :=
  loop * numEle * 8 * 1800000000 / stride / totalCycles

section Exact

variable {numEle : BitVec 64} {stride : BitVec 32} {loop totalCycles : BitVec 64}

theorem throughput_eq (hstride : 0 < stride.toInt) (hcycles : totalCycles ≠ 0) :
    (throughput numEle stride loop totalCycles).map BitVec.toNat =
      some (loop.toNat * numEle.toNat * 8 * 1800000000 % 2 ^ 64 /
        (stride.toNat * totalCycles.toNat)) := by
  obtain ⟨hsize, hpos⟩ := toNat_toSize_of_pos hstride
  have hne : stride ≠ 0 := by
    rintro rfl
    exact absurd hpos (Nat.lt_irrefl 0)
  have hproduct : loop * numEle * 8 * 1800000000 =
      BitVec.ofNat 64 (loop.toNat * numEle.toNat * 8 * 1800000000) := by
    simp only [BitVec.ofNat_mul, BitVec.ofNat_toNat, BitVec.setWidth_eq]
    rfl
  rw [throughput, if_neg (not_or.mpr ⟨hne, hcycles⟩), Option.map_some, hproduct,
    BitVec.toNat_udiv, BitVec.toNat_udiv, BitVec.toNat_ofNat, hsize, Nat.div_div_eq_div_mul]

theorem throughput_exact_iff (hstride : 0 < stride.toInt) (hcycles : totalCycles ≠ 0) :
    (throughput numEle stride loop totalCycles).map BitVec.toNat =
        some (exactThroughput numEle.toNat stride.toNat loop.toNat totalCycles.toNat) ↔
      loop.toNat * numEle.toNat * 8 * 1800000000 < 2 ^ 64 ∨
        loop.toNat * numEle.toNat * 8 * 1800000000 < stride.toNat * totalCycles.toNat := by
  have hpos : 0 < stride.toNat * totalCycles.toNat :=
    Nat.mul_pos (toNat_toSize_of_pos hstride).2
      (Nat.pos_of_ne_zero fun hzero => hcycles (BitVec.eq_of_toNat_eq hzero))
  rw [throughput_eq hstride hcycles, Option.some_inj, exactThroughput, Nat.div_div_eq_div_mul,
    mod_div_eq_iff (by decide) hpos]

end Exact

section Results

variable {numEle : BitVec 64} {stride : BitVec 32} {loop start stop : BitVec 64}

theorem LoopsEnd.of_pos (hstride : 0 < stride.toInt) : LoopsEnd numEle stride loop :=
  Or.inr (Or.inr hstride)

theorem benchMemWrite_result (data : Nat → BitVec 64) (hends : LoopsEnd numEle stride loop) :
    (benchMemWrite data numEle stride loop start stop).map (fun result => result.2.toNat) =
      (throughput numEle stride loop (stop - start)).map BitVec.toNat := by
  rw [benchMemWrite, if_pos hends, Option.map_map]
  rfl

theorem benchMemRead_result (data : Nat → BitVec 64) (sum : BitVec 64)
    (hends : LoopsEnd numEle stride loop) :
    (benchMemRead data sum numEle stride loop start stop).map (fun result => result.2.toNat) =
      (throughput numEle stride loop (stop - start)).map BitVec.toNat := by
  rw [benchMemRead, if_pos hends, Option.map_map]
  rfl

/-- The result of one call of `bench_func`. -/
def MemResults.of (results : MemResults) (arg : MemoryArg) : BitVec 64 :=
  match arg.memType with
  | .hostMem => results.hostMemResult arg.streamId
  | .privateMem => results.dpaMemResult arg.streamId

theorem benchFunc_result (arg : MemoryArg) (data : Nat → BitVec 64) (results : MemResults) :
    (benchFunc arg data start stop results).map (fun result => (result.2.of arg).toNat) =
      (benchMemWrite data arg.numEle arg.stride arg.loop start stop).map
        (fun result => result.2.toNat) := by
  unfold benchFunc
  cases benchMemWrite data arg.numEle arg.stride arg.loop start stop with
  | none => rfl
  | some written =>
      cases hmem : arg.memType with
      | hostMem => simp [MemResults.of, hmem]
      | privateMem => simp [MemResults.of, hmem]

end Results

/-- The product of the bytes and the clock rate fits in 64 bits, or is below the divisor. -/
def MemoryArg.Fits (arg : MemoryArg) (totalCycles : Nat) : Prop :=
  arg.loop.toNat * (arg.size.toNat / 8) * 8 * 1800000000 < 2 ^ 64 ∨
    arg.loop.toNat * (arg.size.toNat / 8) * 8 * 1800000000 < arg.stride.toNat * totalCycles

/-- The exact result for an argument. -/
def MemoryArg.exactResult (arg : MemoryArg) (totalCycles : Nat) : Nat :=
  exactThroughput (arg.size.toNat / 8) arg.stride.toNat arg.loop.toNat totalCycles

/-- For every argument with a positive stride, and every number of cycles, the results of both
functions and the one `bench_func` stores are exact exactly when the product fits. -/
theorem benchMem_exact_iff (arg : MemoryArg) (data : Nat → BitVec 64) (sum : BitVec 64)
    (start stop : BitVec 64) (results : MemResults) (hstride : 0 < arg.stride.toInt)
    (hcycles : stop - start ≠ 0) :
    ((benchMemWrite data arg.numEle arg.stride arg.loop start stop).map
        (fun result => result.2.toNat) = some (arg.exactResult (stop - start).toNat) ↔
      arg.Fits (stop - start).toNat) ∧
    ((benchMemRead data sum arg.numEle arg.stride arg.loop start stop).map
        (fun result => result.2.toNat) = some (arg.exactResult (stop - start).toNat) ↔
      arg.Fits (stop - start).toNat) ∧
    ((benchFunc arg data start stop results).map
        (fun result => (result.2.of arg).toNat) = some (arg.exactResult (stop - start).toNat) ↔
      arg.Fits (stop - start).toNat) := by
  have hends : LoopsEnd arg.numEle arg.stride arg.loop := LoopsEnd.of_pos hstride
  have hiff := @throughput_exact_iff arg.numEle arg.stride arg.loop (stop - start) hstride hcycles
  rw [MemoryArg.numEle, BitVec.toNat_udiv] at hiff
  refine ⟨?_, ?_, ?_⟩
  · rw [benchMemWrite_result data hends]
    exact hiff
  · rw [benchMemRead_result data sum hends]
    exact hiff
  · rw [benchFunc_result, benchMemWrite_result data hends]
    exact hiff

/-- One mebibyte in a million cycles. -/
theorem benchMem_exact_iff_mebibyte :
    (benchMemWrite (fun _ => 0) (1024 * 1024 / 8) 1 1 0 1000000).map
      (fun result => result.2.toNat) = some 1887436800 :=
  (benchMem_exact_iff ⟨0, .privateMem, 1024 * 1024, 1, 1⟩ (fun _ => 0) 0 0 1000000
    ⟨fun _ => 0, fun _ => 0⟩ (by decide) (by decide)).1.mpr (Or.inl (by decide))

/-- The largest size the caps leave to one host thread, once over. -/
def wholeHost : MemoryArg := ⟨0, .hostMem, 16 * 1024 * 1024 * 1024, 1, 1⟩

/-- The caps let it pass, and less than half of the throughput is stored. -/
theorem benchMem_not_exact :
    hostFunc ⟨1, 0, 1, 16 * 1024 * 1024 * 1024, 1024, 1⟩ = some [wholeHost] ∧
      (benchFunc wholeHost (fun _ => 0) 0 4000000000 ⟨fun _ => 0, fun _ => 0⟩).map
        (fun result => (result.2.of wholeHost).toNat) = some 3119255114 ∧
      wholeHost.exactResult 4000000000 = 7730941132 := by
  refine ⟨?_, ?_, by decide⟩
  · have hcap : Flags.memSizeHost ⟨1, 0, 1, 16 * 1024 * 1024 * 1024, 1024, 1⟩ =
        16 * 1024 * 1024 * 1024 := by
      rw [Flags.memSizeHost, capMemSize, if_neg (by decide)]
    rw [hostFunc, if_pos (by decide), hcap]
    rfl
  · rw [benchFunc_result, benchMemWrite_result _ (LoopsEnd.of_pos (by decide))]
    decide

end BenchBF3.Memory
