import Mathlib.Tactic.Ring
import BenchBF3.Foundation.Ring

/-! # Send queues

A send queue is a ring of work queue entries of four segments. `init_send_sq`
writes the segments that stay the same; `prepare_send_packet` then stores the
address and size of a packet in the data segment of the next entry, and
`finish_send_packet` rings the doorbell with the producer index. Addresses are
a parameter: what they point to is up to the program that uses the queue. Send
buffers are handed out in turn from a region of as many entries as the ring.
-/

namespace BenchBF3.Dpa

open Foundation

/-- A segment of the ring. -/
inductive SqeSeg (Addr : Type)
  | blank
  | ctrl (index sqNumber : BitVec 32)
  | eth
  | data (byteCount lkey : BitVec 32) (addr : Option Addr)

structure SqCtx where
  sqNumber : BitVec 32
  sqWqeSegIdx : BitVec 32
  sqPi : BitVec 32
  sqIdxMask : BitVec 32

/-- The context with the ring it points to. -/
structure SendQueue (Addr : Type) where
  ctx : SqCtx
  ring : Nat → SqeSeg Addr

def logSqeNumSegs : Nat := 2

def initSq (logDepth : Nat) (sqNumber : BitVec 32) : SqCtx where
  sqNumber
  sqWqeSegIdx := 0
  sqPi := 0
  sqIdxMask := ringMask (logDepth + logSqeNumSegs)

namespace SendQueue

variable {Addr : Type}

/-- `get_next_sqe`, with the segment that is then written there. -/
def nextSqe (queue : SendQueue Addr) (write : SqeSeg Addr → SqeSeg Addr) : SendQueue Addr :=
  let position := (queue.ctx.sqWqeSegIdx &&& queue.ctx.sqIdxMask).toNat
  { ctx := { queue.ctx with sqWqeSegIdx := queue.ctx.sqWqeSegIdx + 1 }
    ring := Function.update queue.ring position (write (queue.ring position)) }

/-- One round of the loop of `init_send_sq`; the fourth segment is skipped. -/
def initEntry (lkey : BitVec 32) (queue : SendQueue Addr) (index : Nat) : SendQueue Addr :=
  (((queue.nextSqe fun _ => .ctrl (BitVec.ofNat 32 index) queue.ctx.sqNumber).nextSqe
    fun _ => .eth).nextSqe fun _ => .data 0 lkey none).nextSqe id

def initSendSq (queue : SendQueue Addr) (entrySize : Nat) (lkey : BitVec 32) :
    SendQueue Addr :=
  let queue := (List.range entrySize).foldl (initEntry lkey) queue
  { queue with ctx := { queue.ctx with sqWqeSegIdx := 0 } }

/-- The two stores of `prepare_send_packet` leave the key of the segment. -/
def setPacket (byteCount : BitVec 32) (addr : Addr) : SqeSeg Addr → SqeSeg Addr
  | .data _ lkey _ => .data byteCount lkey (some addr)
  | _ => .data byteCount 0 (some addr)

/-- `prepare_send_packet`, with `get_next_data_sqe`. -/
def prepareSendPacket (queue : SendQueue Addr) (addr : Addr) (byteCount : BitVec 32) :
    SendQueue Addr :=
  let position := ((queue.ctx.sqWqeSegIdx + 2) &&& queue.ctx.sqIdxMask).toNat
  { ctx := { queue.ctx with sqWqeSegIdx := queue.ctx.sqWqeSegIdx + 4 }
    ring := Function.update queue.ring position (setPacket byteCount addr (queue.ring position)) }

/-- Where `prepare_send_packet` is going to store. -/
def dataPosition (queue : SendQueue Addr) : Nat :=
  ((queue.ctx.sqWqeSegIdx + 2) &&& queue.ctx.sqIdxMask).toNat

theorem prepareSendPacket_ring (queue : SendQueue Addr) (addr : Addr) (byteCount : BitVec 32) :
    (queue.prepareSendPacket addr byteCount).ring = Function.update queue.ring
      queue.dataPosition (setPacket byteCount addr (queue.ring queue.dataPosition)) := rfl

/-- `finish_send_packet` rings the doorbell with the new producer index. -/
def finishSendPacket (queue : SendQueue Addr) : BitVec 32 × SendQueue Addr :=
  let sqPi := queue.ctx.sqPi + 1
  (sqPi, { queue with ctx := { queue.ctx with sqPi } })

def finishSendPacketBatch (queue : SendQueue Addr) (batchSize : Nat) :
    BitVec 32 × SendQueue Addr :=
  let sqPi := queue.ctx.sqPi + BitVec.ofNat 32 batchSize
  (sqPi, { queue with ctx := { queue.ctx with sqPi } })

/-- The packet that an entry of the queue describes: what the NIC sends. -/
def packet (queue : SendQueue Addr) (entry : Nat) : Option (Addr × BitVec 32) :=
  match queue.ring (4 * entry + 2) with
  | .data byteCount _ (some addr) => some (addr, byteCount)
  | _ => none

/-! ## Running counters -/

/-- The context after some number of packets has been prepared and rung. -/
structure At (queue : SendQueue Addr) (logDepth prepared rung : Nat) : Prop where
  segIdx : queue.ctx.sqWqeSegIdx = BitVec.ofNat 32 (4 * prepared)
  pi : queue.ctx.sqPi = BitVec.ofNat 32 rung
  mask : queue.ctx.sqIdxMask = ringMask (logDepth + logSqeNumSegs)

theorem foldl_initEntry_ctx (lkey : BitVec 32) (indices : List Nat) (queue : SendQueue Addr) :
    (indices.foldl (initEntry lkey) queue).ctx.sqPi = queue.ctx.sqPi ∧
      (indices.foldl (initEntry lkey) queue).ctx.sqIdxMask = queue.ctx.sqIdxMask := by
  induction indices generalizing queue with
  | nil => exact ⟨rfl, rfl⟩
  | cons index rest ih => exact ih (initEntry lkey queue index)

theorem initSendSq_at (logDepth entrySize : Nat) (sqNumber lkey : BitVec 32)
    (ring : Nat → SqeSeg Addr) :
    (initSendSq ⟨initSq logDepth sqNumber, ring⟩ entrySize lkey).At logDepth 0 0 := by
  obtain ⟨hpi, hmask⟩ := foldl_initEntry_ctx lkey (List.range entrySize)
    ⟨initSq logDepth sqNumber, ring⟩
  exact ⟨rfl, hpi, hmask⟩

section Prepare

variable {queue : SendQueue Addr} {logDepth prepared rung : Nat}

/-- The data segment that `get_next_data_sqe` selects. -/
theorem At.dataPosition (hat : queue.At logDepth prepared rung) (hdepth : logDepth ≤ 30) :
    queue.dataPosition = 4 * (prepared % 2 ^ logDepth) + 2 := by
  have hidx : queue.ctx.sqWqeSegIdx + 2 = BitVec.ofNat 32 (4 * prepared + 2) := by
    rw [hat.segIdx, BitVec.ofNat_add]
    rfl
  rw [SendQueue.dataPosition, hidx, hat.mask, ringMask, logSqeNumSegs,
    toNat_and_mask (by omega), pow_add, Nat.mul_comm (2 ^ logDepth)]
  -- Four segments for each entry: the offset inside the entry stays.
  have hsplit := Nat.mod_add_div prepared (2 ^ logDepth)
  have hlt := Nat.mod_lt prepared (Nat.two_pow_pos logDepth)
  have hwhole : 4 * prepared + 2 = 4 * (prepared % 2 ^ logDepth) + 2 +
      2 ^ 2 * 2 ^ logDepth * (prepared / 2 ^ logDepth) := by
    calc 4 * prepared + 2
        = 4 * (prepared % 2 ^ logDepth + 2 ^ logDepth * (prepared / 2 ^ logDepth)) + 2 := by
          rw [hsplit]
      _ = _ := by ring
  rw [hwhole, Nat.add_mul_mod_self_left]
  apply Nat.mod_eq_of_lt
  omega

theorem At.prepare (hat : queue.At logDepth prepared rung) (addr : Addr)
    (byteCount : BitVec 32) :
    (queue.prepareSendPacket addr byteCount).At logDepth (prepared + 1) rung := by
  refine ⟨?_, hat.pi, hat.mask⟩
  change queue.ctx.sqWqeSegIdx + 4 = _
  rw [hat.segIdx, Nat.mul_add, BitVec.ofNat_add]
  rfl

theorem At.finish (hat : queue.At logDepth prepared rung) :
    queue.finishSendPacket.1 = BitVec.ofNat 32 (rung + 1) ∧
      queue.finishSendPacket.2.At logDepth prepared (rung + 1) := by
  have hpi : queue.ctx.sqPi + 1 = BitVec.ofNat 32 (rung + 1) := by
    rw [hat.pi, BitVec.ofNat_add]
    rfl
  exact ⟨hpi, hat.segIdx, hpi, hat.mask⟩

theorem At.finishBatch (hat : queue.At logDepth prepared rung) (batchSize : Nat) :
    (queue.finishSendPacketBatch batchSize).1 = BitVec.ofNat 32 (rung + batchSize) ∧
      (queue.finishSendPacketBatch batchSize).2.At logDepth prepared (rung + batchSize) := by
  have hpi : queue.ctx.sqPi + BitVec.ofNat 32 batchSize = BitVec.ofNat 32 (rung + batchSize) := by
    rw [hat.pi, BitVec.ofNat_add]
  exact ⟨hpi, hat.segIdx, hpi, hat.mask⟩

/-- Preparing a packet writes its own entry and no other. -/
theorem At.packet_prepare (hat : queue.At logDepth prepared rung) (hdepth : logDepth ≤ 30)
    (addr : Addr) (byteCount : BitVec 32) :
    (queue.prepareSendPacket addr byteCount).packet =
      Function.update queue.packet (prepared % 2 ^ logDepth) (some (addr, byteCount)) := by
  funext entry
  simp only [packet, prepareSendPacket_ring, hat.dataPosition hdepth]
  by_cases heq : entry = prepared % 2 ^ logDepth
  · subst entry
    rw [Function.update_self, Function.update_self]
    cases queue.ring (4 * (prepared % 2 ^ logDepth) + 2) <;> rfl
  · rw [Function.update_of_ne (show 4 * entry + 2 ≠ 4 * (prepared % 2 ^ logDepth) + 2 by omega),
      Function.update_of_ne heq]
    rfl

end Prepare

end SendQueue

/-! ## Send buffers -/

structure DtCtx where
  sqTxBuff : BitVec 64
  txBuffIdx : BitVec 32
  dataIdxMask : BitVec 32

def DtCtx.getNextSendBuf (dtCtx : DtCtx) (logDtEntrySz : Nat) : BitVec 64 × DtCtx :=
  let mask := (dtCtx.txBuffIdx &&& dtCtx.dataIdxMask) <<< logDtEntrySz
  (dtCtx.sqTxBuff + mask.setWidth 64, { dtCtx with txBuffIdx := dtCtx.txBuffIdx + 1 })

/-- The address of the entry that a running count of buffers falls on. -/
def sendBuf (base : BitVec 64) (logDepth logDtEntrySz count : Nat) : BitVec 64 :=
  base + BitVec.ofNat 64 (count % 2 ^ logDepth * 2 ^ logDtEntrySz)

/-- The context after some number of buffers has been handed out. -/
structure DtCtx.At (dtCtx : DtCtx) (base : BitVec 64) (logDepth taken : Nat) : Prop where
  base : dtCtx.sqTxBuff = base
  idx : dtCtx.txBuffIdx = BitVec.ofNat 32 taken
  mask : dtCtx.dataIdxMask = ringMask logDepth

section Buffers

variable {dtCtx : DtCtx} {base : BitVec 64} {logDepth logDtEntrySz taken : Nat}

theorem sendBuf_offset_lt (logDepth logDtEntrySz count : Nat) :
    count % 2 ^ logDepth * 2 ^ logDtEntrySz < 2 ^ (logDepth + logDtEntrySz) := by
  rw [pow_add]
  exact Nat.mul_lt_mul_of_pos_right (Nat.mod_lt _ (Nat.two_pow_pos _)) (Nat.two_pow_pos _)

theorem DtCtx.At.getNextSendBuf_fst (hat : dtCtx.At base logDepth taken)
    (hregion : logDepth + logDtEntrySz ≤ 32) :
    (dtCtx.getNextSendBuf logDtEntrySz).1 = sendBuf base logDepth logDtEntrySz taken := by
  have hcell := toNat_and_mask (show logDepth ≤ 32 by omega) taken
  have hoffset : taken % 2 ^ logDepth * 2 ^ logDtEntrySz < 2 ^ 32 :=
    (sendBuf_offset_lt logDepth logDtEntrySz taken).trans_le
      (Nat.pow_le_pow_right (by decide) hregion)
  simp only [DtCtx.getNextSendBuf, hat.base, hat.idx, hat.mask, ringMask, sendBuf]
  congr 1
  apply BitVec.eq_of_toNat_eq
  rw [BitVec.toNat_setWidth, BitVec.toNat_shiftLeft, hcell, Nat.shiftLeft_eq,
    Nat.mod_eq_of_lt hoffset, BitVec.toNat_ofNat]

theorem DtCtx.At.getNextSendBuf_snd (hat : dtCtx.At base logDepth taken)
    (logDtEntrySz : Nat) : (dtCtx.getNextSendBuf logDtEntrySz).2.At base logDepth (taken + 1) := by
  refine ⟨hat.base, ?_, hat.mask⟩
  change dtCtx.txBuffIdx + 1 = _
  rw [hat.idx, BitVec.ofNat_add]
  rfl

@[simp] theorem sendBuf_mod (base : BitVec 64) (logDepth logDtEntrySz count : Nat) :
    sendBuf base logDepth logDtEntrySz (count % 2 ^ logDepth) =
      sendBuf base logDepth logDtEntrySz count := by
  rw [sendBuf, sendBuf, Nat.mod_mod]

/-- Counts on different entries of the region get different buffers. -/
theorem sendBuf_inj (base : BitVec 64) {logDepth logDtEntrySz : Nat}
    (hregion : logDepth + logDtEntrySz ≤ 32) {first second : Nat} :
    sendBuf base logDepth logDtEntrySz first = sendBuf base logDepth logDtEntrySz second ↔
      first % 2 ^ logDepth = second % 2 ^ logDepth := by
  have hoffset : ∀ count, count % 2 ^ logDepth * 2 ^ logDtEntrySz < 2 ^ 64 := fun count =>
    (sendBuf_offset_lt logDepth logDtEntrySz count).trans_le
      (Nat.pow_le_pow_right (by decide) (by omega))
  constructor
  · intro heq
    have hnat := congrArg BitVec.toNat (BitVec.add_right_inj _ |>.mp heq)
    rw [BitVec.toNat_ofNat, BitVec.toNat_ofNat, Nat.mod_eq_of_lt (hoffset first),
      Nat.mod_eq_of_lt (hoffset second)] at hnat
    exact Nat.eq_of_mul_eq_mul_right (Nat.two_pow_pos _) hnat
  · intro heq
    rw [sendBuf, sendBuf, heq]

end Buffers

end BenchBF3.Dpa
