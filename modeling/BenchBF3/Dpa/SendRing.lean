import Mathlib.Data.Set.Lattice
import Mathlib.Order.CompletePartialOrder
import BenchBF3.Foundation.Loops
import BenchBF3.Foundation.System
import BenchBF3.Dpa.SendQueue

/-! # Runs of a send queue and its buffers

`init_send_sq` fills the ring with a template; after it a program calls
`get_next_send_buf`, `prepare_send_packet`, `finish_send_packet` and
`finish_send_packet_batch` in any order and as often as it likes. The state
keeps, beside the two contexts, what these calls have done so far, so that
running counts of packets and buffers can be compared with the 32-bit indices.
-/

namespace BenchBF3.Dpa

open Foundation

variable {Addr : Type}

/-! ## The template -/

/-- The segments of a ring whose first entries `init_send_sq` has written. -/
def template (sqNumber lkey : BitVec 32) (entries : Nat) (ring : Nat → SqeSeg Addr)
    (position : Nat) : SqeSeg Addr :=
  if position < 4 * entries then
    if position % 4 = 0 then .ctrl (BitVec.ofNat 32 (position / 4)) sqNumber
    else if position % 4 = 1 then .eth
    else if position % 4 = 2 then .data 0 lkey none
    else ring position
  else ring position

theorem template_succ (sqNumber lkey : BitVec 32) (entries : Nat) (ring : Nat → SqeSeg Addr) :
    template sqNumber lkey (entries + 1) ring =
      Function.update (Function.update (Function.update (template sqNumber lkey entries ring)
        (4 * entries) (.ctrl (BitVec.ofNat 32 entries) sqNumber)) (4 * entries + 1) .eth)
        (4 * entries + 1 + 1) (.data 0 lkey none) := by
  funext position
  simp only [Function.update_apply, template]
  by_cases hnew : 4 * entries ≤ position ∧ position < 4 * (entries + 1)
  · -- One of the four positions of the new entry.
    obtain rfl | rfl | rfl | rfl : position = 4 * entries ∨ position = 4 * entries + 1 ∨
        position = 4 * entries + 1 + 1 ∨ position = 4 * entries + 1 + 1 + 1 := by omega
    all_goals simp [Nat.add_assoc, Nat.add_mod, Nat.mul_add]
  · have hsame : position < 4 * (entries + 1) ↔ position < 4 * entries := by omega
    rw [if_neg (show position ≠ 4 * entries + 1 + 1 by omega),
      if_neg (show position ≠ 4 * entries + 1 by omega),
      if_neg (show position ≠ 4 * entries by omega)]
    simp only [hsame]

namespace SendQueue

/-- `init_send_sq` is about to write the segment of this number. -/
structure Filling (queue : SendQueue Addr) (logDepth segment : Nat) : Prop where
  segIdx : queue.ctx.sqWqeSegIdx = BitVec.ofNat 32 segment
  mask : queue.ctx.sqIdxMask = ringMask (logDepth + logSqeNumSegs)

section Filling

variable {queue : SendQueue Addr} {logDepth segment : Nat} (hdepth : logDepth ≤ 30)

include hdepth

theorem Filling.nextSqe (hfilling : queue.Filling logDepth segment)
    (hlt : segment < 4 * 2 ^ logDepth) (write : SqeSeg Addr → SqeSeg Addr) :
    (queue.nextSqe write).Filling logDepth (segment + 1) ∧
      (queue.nextSqe write).ring =
        Function.update queue.ring segment (write (queue.ring segment)) ∧
      (queue.nextSqe write).ctx.sqNumber = queue.ctx.sqNumber := by
  have hposition : (queue.ctx.sqWqeSegIdx &&& queue.ctx.sqIdxMask).toNat = segment := by
    rw [hfilling.segIdx, hfilling.mask, ringMask, logSqeNumSegs, toNat_and_mask (by omega)]
    apply Nat.mod_eq_of_lt
    rw [pow_add]
    omega
  refine ⟨⟨?_, hfilling.mask⟩, ?_, rfl⟩
  · change queue.ctx.sqWqeSegIdx + 1 = _
    rw [hfilling.segIdx, BitVec.ofNat_add]
    rfl
  · simp only [SendQueue.nextSqe, hposition]

/-- One round of `init_send_sq` writes one more entry of the template. -/
theorem Filling.initEntry {sqNumber lkey : BitVec 32} {ring : Nat → SqeSeg Addr} {entries : Nat}
    (hfilling : queue.Filling logDepth (4 * entries)) (hlt : entries < 2 ^ logDepth)
    (hnum : queue.ctx.sqNumber = sqNumber)
    (hring : queue.ring = template sqNumber lkey entries ring) :
    (queue.initEntry lkey entries).Filling logDepth (4 * (entries + 1)) ∧
      (queue.initEntry lkey entries).ring = template sqNumber lkey (entries + 1) ring ∧
      (queue.initEntry lkey entries).ctx.sqNumber = sqNumber := by
  obtain ⟨hctrl, hring₁, hnum₁⟩ := hfilling.nextSqe hdepth (by omega)
    fun _ => .ctrl (BitVec.ofNat 32 entries) queue.ctx.sqNumber
  obtain ⟨heth, hring₂, hnum₂⟩ := hctrl.nextSqe hdepth (by omega) fun _ => .eth
  obtain ⟨hdata, hring₃, hnum₃⟩ := heth.nextSqe hdepth (by omega) fun _ => .data 0 lkey none
  obtain ⟨hskip, hring₄, hnum₄⟩ := hdata.nextSqe hdepth (by omega) id
  refine ⟨hskip, ?_, by rw [SendQueue.initEntry, hnum₄, hnum₃, hnum₂, hnum₁, hnum]⟩
  rw [SendQueue.initEntry, hring₄, id, Function.update_eq_self, hring₃, hring₂, hring₁, hring,
    hnum, template_succ]

theorem foldl_initEntry_ring {sqNumber lkey : BitVec 32} {ring : Nat → SqeSeg Addr}
    {entries : Nat} (hle : entries ≤ 2 ^ logDepth) :
    let queue := (List.range entries).foldl (initEntry lkey) ⟨initSq logDepth sqNumber, ring⟩
    queue.Filling logDepth (4 * entries) ∧ queue.ring = template sqNumber lkey entries ring ∧
      queue.ctx.sqNumber = sqNumber := by
  induction entries with
  | zero =>
      refine ⟨⟨rfl, rfl⟩, ?_, rfl⟩
      funext position
      simp [template]
  | succ entries ih =>
      obtain ⟨hfilling, hring, hnum⟩ := ih (by omega)
      rw [foldl_range_succ]
      exact hfilling.initEntry hdepth (by omega) hnum hring

/-- `init_send_sq` writes the template over as many entries as it is told to. -/
theorem initSendSq_ring (sqNumber lkey : BitVec 32) (ring : Nat → SqeSeg Addr) {entries : Nat}
    (hle : entries ≤ 2 ^ logDepth) :
    (initSendSq ⟨initSq logDepth sqNumber, ring⟩ entries lkey).ring =
      template sqNumber lkey entries ring :=
  (foldl_initEntry_ring hdepth hle).2.1

end Filling

end SendQueue

/-! ## Runs -/

inductive SendCall (Addr : Type)
  | getNextSendBuf
  | prepareSendPacket (addr : Addr) (byteCount : BitVec 32)
  | finishSendPacket
  | finishSendPacketBatch (batchSize : BitVec 64)

/-- Both contexts of a thread with what it has done so far: the packets prepared
and the buffers taken, the packets of all doorbells and those since the last
one, and each rung index with the number of packets prepared by then. -/
structure SendRing (Addr : Type) where
  queue : SendQueue Addr
  dtCtx : DtCtx
  packets : List (Addr × BitVec 32)
  buffers : List (BitVec 64)
  rung : Nat
  pending : Nat
  doorbells : List (BitVec 32 × Nat)

namespace SendRing

def init (logDepth : Nat) (sqNumber lkey : BitVec 32) (ring : Nat → SqeSeg Addr)
    (base : BitVec 64) : SendRing Addr where
  queue := (SendQueue.mk (initSq logDepth sqNumber) ring).initSendSq (2 ^ logDepth) lkey
  dtCtx := ⟨base, 0, ringMask logDepth⟩
  packets := []
  buffers := []
  rung := 0
  pending := 0
  doorbells := []

/-- A doorbell for some number of packets, with the index it rings. -/
def ringDoorbell (state : SendRing Addr) (count : Nat) (outcome : BitVec 32 × SendQueue Addr) :
    SendRing Addr :=
  { state with
    queue := outcome.2
    rung := state.rung + count
    pending := 0
    doorbells := state.doorbells ++ [(outcome.1, state.packets.length)] }

def perform (logDtEntrySz : Nat) (state : SendRing Addr) : SendCall Addr → SendRing Addr
  | .getNextSendBuf =>
      let outcome := state.dtCtx.getNextSendBuf logDtEntrySz
      { state with dtCtx := outcome.2, buffers := state.buffers ++ [outcome.1] }
  | .prepareSendPacket addr byteCount =>
      { state with
        queue := state.queue.prepareSendPacket addr byteCount
        packets := state.packets ++ [(addr, byteCount)]
        pending := state.pending + 1 }
  | .finishSendPacket => state.ringDoorbell 1 state.queue.finishSendPacket
  | .finishSendPacketBatch batchSize =>
      state.ringDoorbell batchSize.toNat (state.queue.finishSendPacketBatch batchSize.toNat)

/-- The doorbell covers exactly the packets prepared since the previous one. -/
def Covers (state : SendRing Addr) : SendCall Addr → Prop
  | .finishSendPacket => state.pending = 1
  | .finishSendPacketBatch batchSize => state.pending = batchSize.toNat
  | _ => True

end SendRing

/-- Runs from the template on a ring of `2 ^ logDepth` entries, with send buffers
of `2 ^ logDtEntrySz` bytes. -/
def sendRingSystem (logDepth logDtEntrySz : Nat) (sqNumber lkey : BitVec 32)
    (ring : Nat → SqeSeg Addr) (base : BitVec 64) : System (SendRing Addr) (SendCall Addr) where
  start state := state = .init logDepth sqNumber lkey ring base
  step state call next := next = state.perform logDtEntrySz call

/-- The addresses of the `2 ^ logSize` bytes from an address on. -/
def span (addr : BitVec 64) (logSize : Nat) : Set (BitVec 64) :=
  {byte | (byte - addr).toNat < 2 ^ logSize}

section Buffers

variable {base : BitVec 64} {logDepth logDtEntrySz : Nat}

/-- A byte of a send buffer, counted from the base of the region. -/
theorem toNat_sub_base {count : Nat} {byte : BitVec 64} (hregion : logDepth + logDtEntrySz < 32)
    (hbyte : byte ∈ span (sendBuf base logDepth logDtEntrySz count) logDtEntrySz) :
    ∃ offset < 2 ^ logDtEntrySz,
      (byte - base).toNat = count % 2 ^ logDepth * 2 ^ logDtEntrySz + offset := by
  refine ⟨_, hbyte, ?_⟩
  -- The region is far smaller than the address space: the two offsets do not wrap.
  have hcell := sendBuf_offset_lt logDepth logDtEntrySz count
  have hsize : 2 ^ (logDepth + logDtEntrySz) ≤ 2 ^ 32 := Nat.pow_le_pow_right (by decide) hregion.le
  have hentry : 2 ^ logDtEntrySz ≤ 2 ^ 32 := Nat.pow_le_pow_right (by decide) (by omega)
  have hsum : byte - base = BitVec.ofNat 64 (count % 2 ^ logDepth * 2 ^ logDtEntrySz) +
      (byte - sendBuf base logDepth logDtEntrySz count) := by
    rw [sendBuf]
    ring
  have hlt : (byte - sendBuf base logDepth logDtEntrySz count).toNat < 2 ^ logDtEntrySz := hbyte
  have hcell' : count % 2 ^ logDepth * 2 ^ logDtEntrySz < 2 ^ 64 := by omega
  rw [hsum, BitVec.toNat_add, BitVec.toNat_ofNat, Nat.mod_eq_of_lt hcell']
  apply Nat.mod_eq_of_lt
  omega

theorem span_sendBuf_subset (hregion : logDepth + logDtEntrySz < 32) (count : Nat) :
    span (sendBuf base logDepth logDtEntrySz count) logDtEntrySz ⊆
      span base (logDepth + logDtEntrySz) := by
  intro byte hbyte
  obtain ⟨offset, hoffset, heq⟩ := toNat_sub_base hregion hbyte
  have hcell := Nat.mod_lt count (Nat.two_pow_pos logDepth)
  change (byte - base).toNat < _
  rw [heq, pow_add]
  calc count % 2 ^ logDepth * 2 ^ logDtEntrySz + offset
      < (count % 2 ^ logDepth + 1) * 2 ^ logDtEntrySz := by rw [Nat.add_mul]; omega
    _ ≤ 2 ^ logDepth * 2 ^ logDtEntrySz := Nat.mul_le_mul_right _ hcell

/-- Buffers less than a whole region apart have no byte in common. -/
theorem span_sendBuf_disjoint (hregion : logDepth + logDtEntrySz < 32) {first second : Nat}
    (hlt : first < second) (hspan : second < first + 2 ^ logDepth) :
    Disjoint (span (sendBuf base logDepth logDtEntrySz first) logDtEntrySz)
      (span (sendBuf base logDepth logDtEntrySz second) logDtEntrySz) := by
  rw [Set.disjoint_left]
  intro byte hfirst hsecond
  obtain ⟨offset, hoffset, heq⟩ := toNat_sub_base hregion hfirst
  obtain ⟨offset', hoffset', heq'⟩ := toNat_sub_base hregion hsecond
  apply mod_ne_of_lt hlt hspan
  -- A common byte would be in one entry of the region.
  have hdiv := congrArg (· / 2 ^ logDtEntrySz) (heq.symm.trans heq')
  simpa [Nat.mul_comm _ (2 ^ logDtEntrySz), Nat.mul_add_div (Nat.two_pow_pos logDtEntrySz),
    Nat.div_eq_of_lt hoffset, Nat.div_eq_of_lt hoffset'] using hdiv

end Buffers

/-! ## The discipline -/

namespace SendRing

/-- The running counts behind the indices, and what no call overwrites. -/
structure Counted (logDepth logDtEntrySz : Nat) (sqNumber lkey : BitVec 32)
    (ring : Nat → SqeSeg Addr) (base : BitVec 64) (state : SendRing Addr) : Prop where
  queue : state.queue.At logDepth state.packets.length state.rung
  dtCtx : state.dtCtx.At base logDepth state.buffers.length
  kept : ∀ position, position % 4 ≠ 2 →
    state.queue.ring position = template sqNumber lkey (2 ^ logDepth) ring position
  keyed : ∀ entry < 2 ^ logDepth, ∃ byteCount addr,
    state.queue.ring (4 * entry + 2) = .data byteCount lkey addr
  buffers : logDepth + logDtEntrySz < 32 → ∀ n buffer, state.buffers[n]? = some buffer →
    buffer = sendBuf base logDepth logDtEntrySz n

variable {logDepth logDtEntrySz : Nat} {sqNumber lkey : BitVec 32} {ring : Nat → SqeSeg Addr}
  {base : BitVec 64} {state : SendRing Addr}

theorem init_counted (hdepth : logDepth ≤ 30) :
    (init logDepth sqNumber lkey ring base).Counted logDepth logDtEntrySz sqNumber lkey ring
      base := by
  have hring := SendQueue.initSendSq_ring hdepth sqNumber lkey ring le_rfl
  refine ⟨SendQueue.initSendSq_at _ _ _ _ _, ⟨rfl, rfl, rfl⟩, ?_, ?_, by simp [init]⟩
  · intro position _
    exact congrFun hring position
  · intro entry hentry
    refine ⟨0, none, (congrFun hring _).trans ?_⟩
    simp [template, Nat.add_mod, show 4 * entry + 2 < 4 * 2 ^ logDepth by omega]

/-- The two stores of `prepare_send_packet`. -/
theorem Counted.ring_prepare
    (hcounted : state.Counted logDepth logDtEntrySz sqNumber lkey ring base)
    (hdepth : logDepth ≤ 30) (addr : Addr) (byteCount : BitVec 32) :
    (state.queue.prepareSendPacket addr byteCount).ring =
      Function.update state.queue.ring (4 * (state.packets.length % 2 ^ logDepth) + 2)
        (.data byteCount lkey (some addr)) := by
  obtain ⟨byteCount', addr', hdata⟩ := hcounted.keyed (state.packets.length % 2 ^ logDepth)
    (Nat.mod_lt _ (Nat.two_pow_pos _))
  rw [SendQueue.prepareSendPacket_ring, hcounted.queue.dataPosition hdepth, hdata]
  rfl

theorem Counted.perform
    (hcounted : state.Counted logDepth logDtEntrySz sqNumber lkey ring base)
    (hdepth : logDepth ≤ 30) (call : SendCall Addr) :
    (state.perform logDtEntrySz call).Counted logDepth logDtEntrySz sqNumber lkey ring base := by
  cases call with
  | getNextSendBuf =>
      refine { hcounted with dtCtx := ?_, buffers := ?_ }
      · simpa [SendRing.perform] using hcounted.dtCtx.getNextSendBuf_snd logDtEntrySz
      · intro hregion n buffer hbuffer
        rw [SendRing.perform, List.getElem?_append] at hbuffer
        split at hbuffer
        next => exact hcounted.buffers hregion n buffer hbuffer
        next hge =>
          rw [List.getElem?_singleton] at hbuffer
          split at hbuffer
          next hlast =>
            obtain rfl : n = state.buffers.length := by omega
            rw [← Option.some.inj hbuffer]
            exact hcounted.dtCtx.getNextSendBuf_fst hregion.le
          next => cases hbuffer
  | prepareSendPacket addr byteCount =>
      have hring := hcounted.ring_prepare hdepth addr byteCount
      refine { hcounted with queue := ?_, kept := ?_, keyed := ?_ }
      · simpa [SendRing.perform] using hcounted.queue.prepare addr byteCount
      -- The only segment that is written has position 2 in its entry.
      · intro position hposition
        rw [SendRing.perform, hring, Function.update_of_ne (by omega)]
        exact hcounted.kept position hposition
      · intro entry hentry
        rw [SendRing.perform, hring, Function.update_apply]
        split
        next => exact ⟨_, _, rfl⟩
        next => exact hcounted.keyed entry hentry
  | finishSendPacket => exact { hcounted with queue := hcounted.queue.finish.2 }
  | finishSendPacketBatch batchSize =>
      exact { hcounted with queue := (hcounted.queue.finishBatch batchSize.toNat).2 }

/-- Every doorbell rings the number of packets prepared by then. -/
structure Rung (state : SendRing Addr) : Prop where
  pending : state.rung + state.pending = state.packets.length
  doorbells : ∀ doorbell ∈ state.doorbells, doorbell.1 = BitVec.ofNat 32 doorbell.2

/-- A doorbell that covers what is pending. -/
theorem Rung.ringDoorbell {count : Nat} {outcome : BitVec 32 × SendQueue Addr} (hrung : state.Rung)
    (hcount : state.pending = count) (hindex : outcome.1 = BitVec.ofNat 32 (state.rung + count)) :
    (state.ringDoorbell count outcome).Rung := by
  have hall := hrung.pending
  rw [hcount] at hall
  refine ⟨hall, ?_⟩
  intro doorbell hmem
  rcases List.mem_append.mp hmem with hold | hnew
  · exact hrung.doorbells doorbell hold
  · obtain rfl := List.mem_singleton.mp hnew
    rw [hindex, hall]

theorem Rung.perform (hrung : state.Rung)
    (hcounted : state.Counted logDepth logDtEntrySz sqNumber lkey ring base)
    {call : SendCall Addr} (hcovers : state.Covers call) :
    (state.perform logDtEntrySz call).Rung := by
  cases call with
  | getNextSendBuf => exact ⟨hrung.pending, hrung.doorbells⟩
  | prepareSendPacket addr byteCount =>
      refine ⟨?_, hrung.doorbells⟩
      have hpending := hrung.pending
      simp only [SendRing.perform, List.length_append, List.length_singleton]
      omega
  | finishSendPacket => exact hrung.ringDoorbell hcovers hcounted.queue.finish.1
  | finishSendPacketBatch batchSize =>
      exact hrung.ringDoorbell hcovers (hcounted.queue.finishBatch batchSize.toNat).1

/-- What holds of a ring and its buffers at every point of a run. -/
structure Disciplined (logDepth logDtEntrySz : Nat) (sqNumber lkey : BitVec 32)
    (base : BitVec 64) (state start : SendRing Addr) : Prop where
  segIdx : state.queue.ctx.sqWqeSegIdx = BitVec.ofNat 32 (4 * state.packets.length)
  /-- The next packet goes to the data segment of its entry, and nowhere else. -/
  prepare : ∀ addr byteCount,
    (state.perform logDtEntrySz (.prepareSendPacket addr byteCount)).queue.ring =
      Function.update state.queue.ring (4 * (state.packets.length % 2 ^ logDepth) + 2)
        (.data byteCount lkey (some addr))
  /-- No other call writes to the ring. -/
  others : ∀ call, (∀ addr byteCount, call ≠ .prepareSendPacket addr byteCount) →
    (state.perform logDtEntrySz call).queue.ring = state.queue.ring
  kept : ∀ position, position % 4 ≠ 2 → state.queue.ring position = start.queue.ring position
  ctrl : ∀ entry < 2 ^ logDepth,
    state.queue.ring (4 * entry) = .ctrl (BitVec.ofNat 32 entry) sqNumber
  eth : ∀ entry < 2 ^ logDepth, state.queue.ring (4 * entry + 1) = .eth
  buffers : logDepth + logDtEntrySz < 32 → ∀ n buffer, state.buffers[n]? = some buffer →
    buffer = base + BitVec.ofNat 64 (n % 2 ^ logDepth * 2 ^ logDtEntrySz) ∧
      span buffer logDtEntrySz ⊆ span base (logDepth + logDtEntrySz)
  disjoint : logDepth + logDtEntrySz < 32 → ∀ first second left right, first < second →
    second < first + 2 ^ logDepth → state.buffers[first]? = some left →
    state.buffers[second]? = some right →
    Disjoint (span left logDtEntrySz) (span right logDtEntrySz)

theorem Counted.disciplined
    (hcounted : state.Counted logDepth logDtEntrySz sqNumber lkey ring base)
    (hdepth : logDepth ≤ 30) :
    state.Disciplined logDepth logDtEntrySz sqNumber lkey base
      (init logDepth sqNumber lkey ring base) where
  segIdx := hcounted.queue.segIdx
  prepare := hcounted.ring_prepare hdepth
  others call hnot := by
    cases call with
    | prepareSendPacket addr byteCount => exact (hnot addr byteCount rfl).elim
    | _ => rfl
  kept position hposition := by
    rw [hcounted.kept position hposition]
    exact (congrFun (SendQueue.initSendSq_ring hdepth sqNumber lkey ring le_rfl) position).symm
  ctrl entry hentry := by
    rw [hcounted.kept _ (by omega)]
    simp [template, hentry]
  eth entry hentry := by
    rw [hcounted.kept _ (by omega)]
    simp [template, Nat.add_mod, show 4 * entry + 1 < 4 * 2 ^ logDepth by omega]
  buffers hregion n buffer hbuffer := by
    rw [hcounted.buffers hregion n buffer hbuffer]
    exact ⟨rfl, span_sendBuf_subset hregion n⟩
  disjoint hregion first second left right hlt hspan hleft hright := by
    rw [hcounted.buffers hregion first left hleft, hcounted.buffers hregion second right hright]
    exact span_sendBuf_disjoint hregion hlt hspan

end SendRing

section Runs

variable {logDepth logDtEntrySz : Nat} {sqNumber lkey : BitVec 32} {ring : Nat → SqeSeg Addr}
  {base : BitVec 64} {state : SendRing Addr}

theorem sendRingSystem_counted (hdepth : logDepth ≤ 30)
    (hreach : (sendRingSystem logDepth logDtEntrySz sqNumber lkey ring base).Reachable state) :
    state.Counted logDepth logDtEntrySz sqNumber lkey ring base := by
  apply hreach.invariant
  · rintro _ rfl
    exact SendRing.init_counted hdepth
  · rintro state call _ _ hcounted rfl
    exact hcounted.perform hdepth call

theorem perform_reachable (hreach : ((sendRingSystem logDepth logDtEntrySz sqNumber lkey ring
      base).restrict SendRing.Covers).Reachable state) (call : SendCall Addr)
    (hcovers : state.Covers call) :
    ((sendRingSystem logDepth logDtEntrySz sqNumber lkey ring base).restrict
      SendRing.Covers).Reachable (state.perform logDtEntrySz call) :=
  hreach.step ⟨hcovers, rfl⟩

/-- Every run of any length keeps the discipline; and if each doorbell covers
exactly the packets prepared since the previous one, every rung index is the
number of packets prepared by then. -/
theorem sendRing_disciplined (hdepth : logDepth ≤ 15) :
    (∀ state, (sendRingSystem logDepth logDtEntrySz sqNumber lkey ring base).Reachable state →
      state.Disciplined logDepth logDtEntrySz sqNumber lkey base
        (.init logDepth sqNumber lkey ring base)) ∧
    ∀ state, ((sendRingSystem logDepth logDtEntrySz sqNumber lkey ring base).restrict
        SendRing.Covers).Reachable state →
      ∀ doorbell ∈ state.doorbells, doorbell.1 = BitVec.ofNat 32 doorbell.2 := by
  refine ⟨fun state hreach => (sendRingSystem_counted (by omega) hreach).disciplined (by omega),
    fun state hreach => ?_⟩
  have hrung : state.Rung := by
    apply hreach.invariant
    · rintro _ rfl
      exact ⟨rfl, nofun⟩
    · rintro state call _ hprior hrung ⟨hcovers, rfl⟩
      exact hrung.perform (sendRingSystem_counted (by omega) hprior.of_restrict) hcovers
  exact hrung.doorbells

end Runs

/-- A ring of two entries: a packet is built in a send buffer and rung, then two
more are rung together, so that the third goes to the first entry again. -/
theorem sendRing_disciplined_two :
    ∃ state : SendRing (BitVec 64), ((sendRingSystem 1 11 7 9 (fun _ => .blank) 4096).restrict
        SendRing.Covers).Reachable state ∧
      state.buffers = [4096] ∧ state.doorbells = [(1, 1), (3, 3)] ∧
      state.queue.ring 2 = .data 66 9 (some 10240) ∧
      state.Disciplined 1 11 7 9 4096 (.init 1 7 9 (fun _ => .blank) 4096) ∧
      ∀ doorbell ∈ state.doorbells, doorbell.1 = BitVec.ofNat 32 doorbell.2 := by
  obtain ⟨hruns, hrungs⟩ := @sendRing_disciplined (BitVec 64) 1 11 7 9 (fun _ => .blank) 4096
    (by decide)
  have hstart : ((sendRingSystem 1 11 7 9 (fun _ => .blank) 4096).restrict
      SendRing.Covers).Reachable (.init 1 7 9 (fun _ => .blank) 4096 : SendRing (BitVec 64)) :=
    .start rfl
  have hbuffer := perform_reachable hstart .getNextSendBuf trivial
  have hfirst := perform_reachable hbuffer (.prepareSendPacket 4096 64) trivial
  have hrung := perform_reachable hfirst .finishSendPacket rfl
  have hsecond := perform_reachable hrung (.prepareSendPacket 8192 65) trivial
  have hthird := perform_reachable hsecond (.prepareSendPacket 10240 66) trivial
  have hbatch := perform_reachable hthird (.finishSendPacketBatch 2) rfl
  exact ⟨_, hbatch, rfl, rfl, rfl, hruns _ hbatch.of_restrict, hrungs _ hbatch⟩

end BenchBF3.Dpa
