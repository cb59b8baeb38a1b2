import BenchBF3.Foundation.Blocks
import BenchBF3.Foundation.Ring
import BenchBF3.Foundation.System
import BenchBF3.Dpa.MacSwap

/-! # The round trip benchmark

`dpa_send` and `dpa_send_ntp` send a packet with a time stamp, wait for the
reflector to send it back, add the cycles since the stamp to a total and send the
next packet. The NIC delivers the frames its flow rule selects, those to the
sender's own MAC address. Send and receive queue share their buffers, and the index
in the packet is not compared: the rule alone keeps foreign frames out of both.
-/

namespace BenchBF3.Dpa

open Foundation

/-! ## The packets -/

inductive SendProgram
  | dpaSend
  | dpaSendNtp
  deriving DecidableEq, Repr

def hdrSize : Nat := 42

namespace SendProgram

/-- The first word of the payload, or `timestamp1.n_sec` of the NTP header. -/
def stampOffset : SendProgram → Nat
  | dpaSend => hdrSize
  | dpaSendNtp => hdrSize + 8

def indexOffset : SendProgram → Nat
  | dpaSend => hdrSize + 8
  | dpaSendNtp => hdrSize + 64

def dataSize : SendProgram → Nat
  | dpaSend => 22
  | dpaSendNtp => 72

def pktSize (program : SendProgram) : Nat := hdrSize + program.dataSize

theorem offsets (program : SendProgram) :
    hdrSize ≤ program.stampOffset ∧ program.stampOffset + 8 ≤ program.indexOffset ∧
      program.indexOffset + 8 ≤ program.pktSize := by
  cases program <;> decide

end SendProgram

def srcAddr : List (BitVec 8) := [0x02, 0x01, 0x01, 0x01, 0x01, 0x01]

def dstAddr : List (BitVec 8) := [0x01, 0x01, 0x01, 0x01, 0x01, 0x01]

/-- The two bytes of a value in network order. -/
def cpuToBe16 (value : BitVec 16) : List (BitVec 8) :=
  [value.extractLsb' 8 8, value.extractLsb' 0 8]

/-- The assignments to the Ethernet, IPv4 and UDP headers, with the offsets of the
packed structures. Neither `hdr_checksum` nor `dgram_cksum` is among them. -/
def headerFields (sendIndex : BitVec 64) : List (Nat × List (BitVec 8)) :=
  [(6, srcAddr),
    (0, dstAddr),
    (12, cpuToBe16 0x0800),
    (14, [0x45]),
    (15, [0]),
    (16, cpuToBe16 44),
    (18, cpuToBe16 (sendIndex.setWidth 16)),
    (20, cpuToBe16 0),
    (22, [64]),
    (23, [17]),
    -- A 16-bit value in network order, assigned to a 32-bit address field.
    (26, cpuToBe16 1 ++ [0, 0]),
    (30, cpuToBe16 1 ++ [0, 0]),
    (38, cpuToBe16 24),
    (34, cpuToBe16 1),
    (36, cpuToBe16 1)]

/-- The header is written where the packet is. -/
def preparePacket (sendIndex : BitVec 64) (sqData : Buffer) : Buffer :=
  writeFields sqData (headerFields sendIndex)

/-- The header is written to a local `udp_packet`, which is copied to the host. -/
def preparePacketHost (stack : Buffer) (sendIndex : BitVec 64) (sqData : Buffer) : Buffer :=
  writeBytes sqData (readBytes (writeFields stack (headerFields sendIndex)) hdrSize)

theorem headerFields_covered_iff {sendIndex : BitVec 64} {position : Nat} :
    Covered (headerFields sendIndex) position ↔
      position < hdrSize ∧ position ∉ [24, 25, 40, 41] := by
  simp only [Covered, headerFields, srcAddr, dstAddr, cpuToBe16, hdrSize, List.cons_append,
    List.nil_append, List.mem_cons, List.not_mem_nil, or_false, exists_eq_or_imp, ↓existsAndEq,
    List.length_cons, List.length_nil, zero_add, Nat.reduceAdd, zero_le, true_and, not_or]
  omega

theorem preparePacketHost_of_lt {stack sqData : Buffer} {sendIndex : BitVec 64} {position : Nat}
    (hposition : position < hdrSize) :
    preparePacketHost stack sendIndex sqData position =
      writeFields stack (headerFields sendIndex) position :=
  writeBytes_readBytes_apply _ _ hposition

theorem preparePacketHost_of_le {stack sqData : Buffer} {sendIndex : BitVec 64} {position : Nat}
    (hposition : hdrSize ≤ position) :
    preparePacketHost stack sendIndex sqData position = sqData position := by
  simp [preparePacketHost, writeBytes, hposition]

/-- No field covers the checksums, so each way leaves there what was there before. -/
theorem preparePacket_checksum {stack sqData : Buffer} {sendIndex : BitVec 64} {position : Nat}
    (hchecksum : position ∈ [24, 25, 40, 41]) :
    preparePacketHost stack sendIndex sqData position = stack position ∧
      preparePacket sendIndex sqData position = sqData position := by
  have hbare : ¬Covered (headerFields sendIndex) position := fun hcovered =>
    (headerFields_covered_iff.mp hcovered).2 hchecksum
  have hheader : position < hdrSize := by
    simp at hchecksum
    unfold hdrSize
    omega
  rw [preparePacketHost_of_lt hheader, preparePacket]
  exact ⟨writeFields_of_not_covered hbare, writeFields_of_not_covered hbare⟩

/-- The two ways to prepare a packet differ in the two checksums only: one leaves in
them what the buffer held, the other sends what was on the stack. -/
theorem preparePacketHost_eq_iff (sendIndex : BitVec 64) (sqData : Buffer) (position : Nat) :
    ((∀ stack, preparePacketHost stack sendIndex sqData position =
      preparePacket sendIndex sqData position) ↔ position ∉ [24, 25, 40, 41]) ∧
    (position ∈ [24, 25, 40, 41] → ∀ stack,
      preparePacketHost stack sendIndex sqData position = stack position ∧
        preparePacket sendIndex sqData position = sqData position) := by
  refine ⟨⟨?_, ?_⟩, fun hchecksum _ => preparePacket_checksum hchecksum⟩
  · intro hsame hchecksum
    -- A stack whose byte differs from the buffer's.
    have hstack := hsame fun _ => sqData position + 1
    obtain ⟨hhost, hdpa⟩ := @preparePacket_checksum (fun _ => sqData position + 1) sqData
      sendIndex position hchecksum
    rw [hhost, hdpa] at hstack
    exact absurd (left_eq_add.mp hstack.symm) (by decide)
  · intro hfield stack
    by_cases hheader : position < hdrSize
    · rw [preparePacketHost_of_lt hheader]
      exact writeFields_congr (Or.inr (headerFields_covered_iff.mpr ⟨hheader, hfield⟩))
    · rw [preparePacketHost_of_le (Nat.le_of_not_lt hheader), preparePacket,
        writeFields_of_not_covered fun hcovered =>
          hheader (headerFields_covered_iff.mp hcovered).1]

/-! ## The sender, the NIC and the network -/

/-- Where the send buffers are, and whether the receive queue has the same ones. -/
structure SenderConfig where
  program : SendProgram
  sqOnHost : Bool
  txSharedRxBuffer : Bool

def Frame.dst (frame : Frame) : List (BitVec 8) := frame.take 6

def Frame.src (frame : Frame) : List (BitVec 8) := (frame.drop 6).take 6

def logRingDepth : Nat := 7

def batchSize : Nat := 100000

/-- The device context, the buffers, the packets the NIC has to send, the frames on
the way to and from the reflector, and the completions not yet polled. A buffer is
known by its entry and a packet also by its size. `sentAt` is the clock at the last
stamp, and `rounds` pairs the clocks at sending and at processing. -/
structure RoundTrip where
  started : Bool
  sendIndex : BitVec 64
  packetsCount : BitVec 32
  totalCycles : BitVec 64
  txBuffIdx : BitVec 32
  logged : List (BitVec 64 × BitVec 32)
  slots : Nat → Buffer
  posted : List (Nat × Nat)
  outward : List Frame
  inward : List Frame
  received : Nat
  completions : List (Nat × Nat)
  sentAt : BitVec 64
  rounds : List (BitVec 64 × BitVec 64)

namespace SenderConfig

variable (config : SenderConfig)

def prepare (stack : Buffer) (sendIndex : BitVec 64) (sqData : Buffer) : Buffer :=
  if config.sqOnHost then preparePacketHost stack sendIndex sqData
  else preparePacket sendIndex sqData

/-- The whole packet: the index is stored before the stamp, both after the header. -/
def packet (stack : Buffer) (sendIndex stamp : BitVec 64) (sqData : Buffer) : Buffer :=
  let sqData := config.prepare stack sendIndex sqData
  let sqData := store64 sqData config.program.indexOffset sendIndex
  store64 sqData config.program.stampOffset stamp

/-- The buffer of a receive WQE. -/
def rxSlot (received : Nat) : Nat :=
  if config.txSharedRxBuffer then received % 2 ^ logRingDepth
  else 2 ^ logRingDepth + received % 2 ^ logRingDepth

end SenderConfig

namespace RoundTrip

/-- `dpa_send_device_init` on buffers with any contents. -/
def init (slots : Nat → Buffer) : RoundTrip where
  started := false
  sendIndex := 1
  packetsCount := 0
  totalCycles := 0
  txBuffIdx := 0
  logged := []
  slots
  posted := []
  outward := []
  inward := []
  received := 0
  completions := []
  sentAt := 0
  rounds := []

variable (config : SenderConfig)

/-- `get_next_send_buf`, the preparation of the packet and the doorbell. -/
def sendPacket (stack : Buffer) (stamp : BitVec 64) (state : RoundTrip) : RoundTrip :=
  let slot := (state.txBuffIdx &&& ringMask logRingDepth).toNat
  { state with
    txBuffIdx := state.txBuffIdx + 1
    slots := Function.update state.slots slot
      (config.packet stack state.sendIndex stamp (state.slots slot))
    posted := state.posted ++ [(slot, config.program.pktSize)]
    sentAt := stamp }

def firstPacket (stack : Buffer) (stamp : BitVec 64) (state : RoundTrip) : RoundTrip :=
  { state.sendPacket config stack stamp with started := true }

/-- The counters of `process_packet`, with the log line of a full batch. -/
def account (now cycle : BitVec 64) (state : RoundTrip) : RoundTrip :=
  let packetsCount := state.packetsCount + 1
  let totalCycles := state.totalCycles + cycle
  let full := packetsCount = BitVec.ofNat 32 batchSize
  { state with
    sendIndex := state.sendIndex + 1
    logged := if full then state.logged ++ [(totalCycles, packetsCount)] else state.logged
    totalCycles := if full then 0 else totalCycles
    packetsCount := if full then 0 else packetsCount
    rounds := state.rounds ++ [(state.sentAt, now)] }

/-- `process_packet` on the completion in front. The comparison of the index in the
packet with `send_index` is commented out in the source. The clock readings are any
64-bit values: how the cycle counter wraps is left open. -/
def processPacket (now : BitVec 64) (stack : Buffer) (stamp : BitVec 64) (state : RoundTrip)
    (entry : Nat × Nat) : RoundTrip :=
  let cycle := now - load64 (state.slots entry.1) config.program.stampOffset
  if entry.2 ≠ config.program.pktSize then state
  else (state.account now cycle).sendPacket config stack stamp

/-- The NIC sends what the buffer holds when it gets to it; the flow rule of the
send side lets the frames from the sender's address out. -/
def transmit (state : RoundTrip) (entry : Nat × Nat) : RoundTrip :=
  let frame : Frame := readBytes (state.slots entry.1) entry.2
  { state with
    outward := if frame.src = srcAddr then state.outward ++ [frame] else state.outward }

/-- The flow rule of the receive side selects the frames to the sender's address; the
NIC writes such a frame to the buffer of the next WQE. -/
def receive (state : RoundTrip) (frame : Frame) : RoundTrip :=
  if frame.dst = srcAddr then
    let slot := config.rxSlot state.received
    { state with
      slots := Function.update state.slots slot (writeBytes (state.slots slot) frame)
      received := state.received + 1
      completions := state.completions ++ [(slot, frame.length)] }
  else state

end RoundTrip

inductive RoundTripAction
  | first
  | transmit
  | reflect
  | arrive (frame : Frame)
  | receive
  | process (now : BitVec 64)
  | lose

/-- The device runs its handler, the NIC and the reflector move the frame in front,
and the network may lose a frame or bring one from elsewhere. -/
inductive RoundTripStep (config : SenderConfig) :
    RoundTrip → RoundTripAction → RoundTrip → Prop
  | first {state : RoundTrip} (stack : Buffer) (stamp : BitVec 64)
      (hstarted : state.started = false) :
      RoundTripStep config state .first (state.firstPacket config stack stamp)
  | transmit {state : RoundTrip} {entry : Nat × Nat} {rest : List (Nat × Nat)}
      (hposted : state.posted = entry :: rest) :
      RoundTripStep config state .transmit ({ state with posted := rest }.transmit entry)
  | reflect {state : RoundTrip} {frame : Frame} {rest : List Frame}
      (houtward : state.outward = frame :: rest) :
      RoundTripStep config state .reflect
        { state with outward := rest, inward := state.inward ++ [frame.swapMacs] }
  | arrive {state : RoundTrip} (frame : Frame) :
      RoundTripStep config state (.arrive frame)
        { state with inward := state.inward ++ [frame] }
  | receive {state : RoundTrip} {frame : Frame} {rest : List Frame}
      (hinward : state.inward = frame :: rest)
      (hposted : state.completions.length < 2 ^ logRingDepth) :
      RoundTripStep config state .receive ({ state with inward := rest }.receive config frame)
  | process {state : RoundTrip} {entry : Nat × Nat} {rest : List (Nat × Nat)}
      (now : BitVec 64) (stack : Buffer) (stamp : BitVec 64)
      (hcompletions : state.completions = entry :: rest) :
      RoundTripStep config state (.process now)
        ({ state with completions := rest }.processPacket config now stack stamp entry)
  | loseOutward {state : RoundTrip} {frame : Frame} {rest : List Frame}
      (houtward : state.outward = frame :: rest) :
      RoundTripStep config state .lose { state with outward := rest }
  | loseInward {state : RoundTrip} {frame : Frame} {rest : List Frame}
      (hinward : state.inward = frame :: rest) :
      RoundTripStep config state .lose { state with inward := rest }

def roundTripSystem (config : SenderConfig) : System RoundTrip RoundTripAction where
  start state := ∃ slots, state = RoundTrip.init slots
  step := RoundTripStep config

/-- Nobody else sends to the sender's address. -/
def Private (_ : RoundTrip) : RoundTripAction → Prop
  | .arrive frame => frame.dst ≠ srcAddr
  | _ => True

/-- The same, and the network loses nothing. -/
def Lossless (state : RoundTrip) (action : RoundTripAction) : Prop :=
  Private state action ∧ action ≠ .lose

section Paths

variable {config : SenderConfig} {state next : RoundTrip} {action : RoundTripAction}

theorem RoundTripStep.private_path (hstep : RoundTripStep config state action next)
    (hprivate : Private state action) :
    ((roundTripSystem config).restrict Private).Path state next :=
  .single ⟨hprivate, hstep⟩

theorem RoundTripStep.lossless_path (hstep : RoundTripStep config state action next)
    (hprivate : Private state action) (hkept : action ≠ .lose) :
    ((roundTripSystem config).restrict Lossless).Path state next :=
  .single ⟨⟨hprivate, hkept⟩, hstep⟩

end Paths

/-! ## What a packet carries -/

/-- The stamp and the index of a packet. -/
structure Carries (program : SendProgram) (buffer : Buffer) (stamp sendIndex : BitVec 64) :
    Prop where
  stamp : load64 buffer program.stampOffset = stamp
  index : load64 buffer program.indexOffset = sendIndex

section Carries

variable {program : SendProgram} {config : SenderConfig} {stamp sendIndex : BitVec 64}

/-- Only the bytes behind the MAC addresses matter. -/
theorem Carries.congr {buffer other : Buffer} (hcarries : Carries program buffer stamp sendIndex)
    (hsame : ∀ position, 12 ≤ position → position < program.pktSize →
      other position = buffer position) : Carries program other stamp sendIndex := by
  have hword : ∀ offset, 12 ≤ offset → offset + 8 ≤ program.pktSize →
      load64 other offset = load64 buffer offset := fun offset hlow hhigh =>
    loadWord_congr fun index hindex => hsame _ (by omega) (by omega)
  obtain ⟨hstamp, hindex, hsize⟩ := program.offsets
  have hheader : 12 ≤ hdrSize := by decide
  exact ⟨(hword _ (by omega) (by omega)).trans hcarries.stamp,
    (hword _ (by omega) (by omega)).trans hcarries.index⟩

theorem Carries.readBytes {buffer : Buffer} (hcarries : Carries program buffer stamp sendIndex)
    (other : Buffer) :
    Carries program (writeBytes other (readBytes buffer program.pktSize)) stamp sendIndex :=
  hcarries.congr fun _ _ hposition => writeBytes_readBytes_apply _ _ hposition

theorem Carries.writeBytes {frame : Frame} {buffer : Buffer}
    (hcarries : Carries program (writeBytes buffer frame) stamp sendIndex)
    (hlength : frame.length = program.pktSize) (other : Buffer) :
    Carries program (Foundation.writeBytes other frame) stamp sendIndex :=
  hcarries.congr fun _ _ hposition => writeBytes_congr _ _ (hlength ▸ hposition)

/-- The reflector exchanges the addresses and leaves the payload alone. -/
theorem Carries.swapMacs {frame : Frame} {buffer : Buffer}
    (hcarries : Carries program (Foundation.writeBytes buffer frame) stamp sendIndex)
    (hheader : 14 ≤ frame.length) :
    Carries program (Foundation.writeBytes buffer frame.swapMacs) stamp sendIndex := by
  apply hcarries.congr
  intro position hposition _
  rw [writeBytes_apply, writeBytes_apply, Frame.getElem?_swapMacs hheader, if_neg (by omega),
    if_neg (by omega)]

theorem SenderConfig.packet_carries (stack : Buffer) (sqData : Buffer) :
    Carries config.program (config.packet stack sendIndex stamp sqData) stamp sendIndex := by
  obtain ⟨-, hdisjoint, -⟩ := config.program.offsets
  refine ⟨load64_store64 _ _ _, ?_⟩
  rw [SenderConfig.packet, load64_store64_of_disjoint (Or.inr hdisjoint), load64_store64]

theorem SenderConfig.packet_of_lt {stack sqData : Buffer} {position : Nat}
    (hposition : position < hdrSize) (hfield : position ∉ [24, 25, 40, 41]) :
    config.packet stack sendIndex stamp sqData position =
      preparePacket sendIndex sqData position := by
  obtain ⟨hstamp, hindex, -⟩ := config.program.offsets
  have hprepare : config.packet stack sendIndex stamp sqData position =
      config.prepare stack sendIndex sqData position := by
    rw [SenderConfig.packet, store64, if_neg (by omega), store64, if_neg (by omega)]
  rw [hprepare, SenderConfig.prepare]
  split
  · rw [preparePacketHost_of_lt hposition]
    exact writeFields_congr (Or.inr (headerFields_covered_iff.mpr ⟨hposition, hfield⟩))
  · rfl

theorem Frame.src_readBytes {buffer : Buffer} {length : Nat} (hlength : 12 ≤ length) :
    Frame.src (Foundation.readBytes buffer length) =
      Foundation.readBytes (fun position => buffer (6 + position)) 6 := by
  apply List.ext_getElem
  · simp only [Frame.src, List.length_take, List.length_drop, length_readBytes]
    omega
  · intro position _ _
    simp [Frame.src, Foundation.readBytes]

theorem SenderConfig.packet_src (stack : Buffer) (sqData : Buffer) :
    Frame.src (Foundation.readBytes (config.packet stack sendIndex stamp sqData)
      config.program.pktSize) = srcAddr := by
  have hsize : 12 ≤ config.program.pktSize := by
    cases config.program <;> decide
  have hheader : Foundation.readBytes
      (fun position => config.packet stack sendIndex stamp sqData (6 + position)) 6 =
      Foundation.readBytes (fun position => preparePacket sendIndex sqData (6 + position)) 6 := by
    apply readBytes_eq_iff.mpr
    intro position hposition
    apply SenderConfig.packet_of_lt
    · unfold hdrSize
      omega
    · simp
      omega
  rw [Frame.src_readBytes hsize, hheader]
  rfl

/-- The packet is a frame the reflector handles. -/
theorem SenderConfig.packet_valid (stack : Buffer) (sqData : Buffer) :
    Frame.Valid (Foundation.readBytes (config.packet stack sendIndex stamp sqData)
      config.program.pktSize) := by
  have hsize : 14 ≤ config.program.pktSize ∧ config.program.pktSize ≤ 2 ^ logWqDataEntryBsize := by
    cases config.program <;> decide
  refine ⟨?_, ?_, ?_, ?_⟩
  · rw [length_readBytes]
    exact hsize.1
  · rw [length_readBytes]
    exact hsize.2
  · rw [getElem?_readBytes (by omega), SenderConfig.packet_of_lt (by decide) (by decide)]
    rfl
  · rw [getElem?_readBytes (by omega), SenderConfig.packet_of_lt (by decide) (by decide)]
    rfl

theorem Frame.dst_swapMacs {frame : Frame} (hheader : 14 ≤ frame.length) :
    frame.swapMacs.dst = frame.src := by
  have hlength : ((frame.drop 6).take 6).length = 6 := by
    simp only [List.length_take, List.length_drop]
    omega
  rw [Frame.dst, Frame.swapMacs, List.append_assoc, List.take_append_of_le_length hlength.ge,
    List.take_of_length_le hlength.le, Frame.src]

theorem Frame.length_swapMacs {frame : Frame} (hheader : 14 ≤ frame.length) :
    frame.swapMacs.length = frame.length := by
  simp only [Frame.swapMacs, List.length_append, List.length_take, List.length_drop]
  omega

end Carries

/-! ## One packet circulates -/

/-- A packet on its way to the reflector. -/
structure Outgoing (program : SendProgram) (stamp sendIndex : BitVec 64) (frame : Frame) :
    Prop where
  valid : frame.Valid
  length : frame.length = program.pktSize
  src : frame.src = srcAddr
  carries : Carries program (writeBytes (fun _ => 0) frame) stamp sendIndex

/-- A packet on its way back. -/
structure Incoming (program : SendProgram) (stamp sendIndex : BitVec 64) (frame : Frame) :
    Prop where
  length : frame.length = program.pktSize
  carries : Carries program (writeBytes (fun _ => 0) frame) stamp sendIndex

theorem SenderConfig.packet_outgoing (config : SenderConfig) (stack : Buffer)
    (stamp sendIndex : BitVec 64) (sqData : Buffer) :
    Outgoing config.program stamp sendIndex
      (readBytes (config.packet stack sendIndex stamp sqData) config.program.pktSize) where
  valid := config.packet_valid stack sqData
  length := length_readBytes _ _
  src := config.packet_src stack sqData
  carries := (config.packet_carries stack sqData).readBytes _

theorem Outgoing.swapMacs {program : SendProgram} {stamp sendIndex : BitVec 64} {frame : Frame}
    (hframe : Outgoing program stamp sendIndex frame) :
    Incoming program stamp sendIndex frame.swapMacs where
  length := (Frame.length_swapMacs hframe.valid.header).trans hframe.length
  carries := hframe.carries.swapMacs hframe.valid.header

/-- The stamp `process_packet` reads from the buffer of a received packet. -/
theorem Incoming.stamp_eq {program : SendProgram} {stamp sendIndex : BitVec 64} {buffer : Buffer}
    {length : Nat} (hframe : Incoming program stamp sendIndex (readBytes buffer length)) :
    load64 buffer program.stampOffset = stamp := by
  have hlength : length = program.pktSize := by
    rw [← hframe.length, length_readBytes]
  subst hlength
  have hcarries : Carries program buffer stamp sendIndex :=
    hframe.carries.congr fun _ _ hposition => (writeBytes_readBytes_apply _ _ hposition).symm
  exact hcarries.stamp

namespace RoundTrip

variable {config : SenderConfig} {state next : RoundTrip} {action : RoundTripAction}

/-- The sender's packets between the doorbell and the polling of their completion. -/
def inFlight (state : RoundTrip) : Nat :=
  state.posted.length + state.outward.length +
    state.inward.countP (fun frame => frame.dst = srcAddr) + state.completions.length

/-- There is at most one packet, and it carries the last stamp and the current index
wherever it is. -/
structure Circulates (config : SenderConfig) (state : RoundTrip) : Prop where
  single : state.inFlight ≤ state.started.toNat
  posted : ∀ entry ∈ state.posted, Outgoing config.program state.sentAt state.sendIndex
    (readBytes (state.slots entry.1) entry.2)
  outward : ∀ frame ∈ state.outward,
    Outgoing config.program state.sentAt state.sendIndex frame
  inward : ∀ frame ∈ state.inward, frame.dst = srcAddr →
    Incoming config.program state.sentAt state.sendIndex frame
  completions : ∀ entry ∈ state.completions, Incoming config.program state.sentAt
    state.sendIndex (readBytes (state.slots entry.1) entry.2)

/-- Nothing of the sender's is anywhere. -/
theorem idle_of_inFlight_eq_zero (hidle : state.inFlight = 0) :
    state.posted = [] ∧ state.outward = [] ∧ (∀ frame ∈ state.inward, frame.dst ≠ srcAddr) ∧
      state.completions = [] := by
  simp only [inFlight, Nat.add_eq_zero_iff, List.length_eq_zero_iff, List.countP_eq_zero,
    decide_eq_true_eq] at hidle
  exact ⟨hidle.1.1.1, hidle.1.1.2, hidle.1.2, hidle.2⟩

theorem Circulates.of_idle (hidle : state.inFlight = 0) : state.Circulates config := by
  obtain ⟨hposted, houtward, hinward, hcompletions⟩ := idle_of_inFlight_eq_zero hidle
  refine ⟨by omega, ?_, ?_, fun frame hframe hdst => absurd hdst (hinward frame hframe), ?_⟩
  · simp [hposted]
  · simp [houtward]
  · simp [hcompletions]

theorem inFlight_sendPacket (stack : Buffer) (stamp : BitVec 64) :
    (state.sendPacket config stack stamp).inFlight = state.inFlight + 1 := by
  simp only [inFlight, sendPacket, List.length_append, List.length_singleton]
  omega

/-- A packet sent when there is none is the only one. -/
theorem Circulates.sendPacket (hidle : state.inFlight = 0) (hstarted : state.started = true)
    (stack : Buffer) (stamp : BitVec 64) :
    (state.sendPacket config stack stamp).Circulates config := by
  obtain ⟨hposted, houtward, hinward, hcompletions⟩ := idle_of_inFlight_eq_zero hidle
  refine ⟨?_, ?_, ?_, fun frame hframe hdst => absurd hdst (hinward frame hframe), ?_⟩
  · rw [inFlight_sendPacket, hidle]
    exact hstarted ▸ le_refl 1
  · intro entry hentry
    have hnew : entry = ((state.txBuffIdx &&& ringMask logRingDepth).toNat,
        config.program.pktSize) := by
      simpa [RoundTrip.sendPacket, hposted] using hentry
    subst hnew
    dsimp only [RoundTrip.sendPacket]
    rw [Function.update_self]
    exact config.packet_outgoing stack stamp state.sendIndex _
  · simp [RoundTrip.sendPacket, houtward]
  · simp [RoundTrip.sendPacket, hcompletions]

/-- The flow rule of the send side lets the packet out. -/
theorem Circulates.transmit_eq (hinv : state.Circulates config) {entry : Nat × Nat}
    {rest : List (Nat × Nat)} (hposted : state.posted = entry :: rest) :
    { state with posted := rest }.transmit entry = { state with
      posted := rest
      outward := state.outward ++ [readBytes (state.slots entry.1) entry.2] } := by
  have hframe := hinv.posted entry (hposted ▸ List.mem_cons_self)
  rw [RoundTrip.transmit]
  simp only [hframe.src, if_true]

theorem Circulates.transmit (hinv : state.Circulates config) {entry : Nat × Nat}
    {rest : List (Nat × Nat)} (hposted : state.posted = entry :: rest) :
    ({ state with posted := rest }.transmit entry).Circulates config ∧
      ({ state with posted := rest }.transmit entry).inFlight = state.inFlight := by
  rw [hinv.transmit_eq hposted]
  have hcount : { state with
      posted := rest
      outward := state.outward ++ [readBytes (state.slots entry.1) entry.2] }.inFlight =
      state.inFlight := by
    simp only [inFlight, hposted, List.length_append, List.length_cons, List.length_nil]
    omega
  refine ⟨⟨hcount.trans_le hinv.single, ?_, ?_, hinv.inward, hinv.completions⟩, hcount⟩
  · intro other hother
    exact hinv.posted other (hposted ▸ List.mem_cons_of_mem _ hother)
  · intro frame hmember
    obtain hmember | hmember := List.mem_append.mp hmember
    · exact hinv.outward frame hmember
    · obtain rfl := List.mem_singleton.mp hmember
      exact hinv.posted entry (hposted ▸ List.mem_cons_self)

theorem Circulates.reflect (hinv : state.Circulates config) {frame : Frame} {rest : List Frame}
    (houtward : state.outward = frame :: rest) :
    { state with
      outward := rest
      inward := state.inward ++ [frame.swapMacs] }.Circulates config ∧
    { state with
      outward := rest
      inward := state.inward ++ [frame.swapMacs] }.inFlight = state.inFlight := by
  have hframe := hinv.outward frame (houtward ▸ List.mem_cons_self)
  have hdst : frame.swapMacs.dst = srcAddr :=
    (Frame.dst_swapMacs hframe.valid.header).trans hframe.src
  have hcount : { state with
      outward := rest
      inward := state.inward ++ [frame.swapMacs] }.inFlight = state.inFlight := by
    simp only [inFlight, houtward, List.countP_append, List.countP_singleton, hdst,
      decide_true, if_true, List.length_cons]
    omega
  refine ⟨⟨hcount.trans_le hinv.single, hinv.posted, ?_, ?_, hinv.completions⟩, hcount⟩
  · intro other hother
    exact hinv.outward other (houtward ▸ List.mem_cons_of_mem _ hother)
  · intro other hother hown
    obtain hother | hother := List.mem_append.mp hother
    · exact hinv.inward other hother hown
    · obtain rfl := List.mem_singleton.mp hother
      exact hframe.swapMacs

theorem Circulates.arrive (hinv : state.Circulates config) {frame : Frame}
    (hforeign : frame.dst ≠ srcAddr) :
    { state with inward := state.inward ++ [frame] }.Circulates config ∧
      { state with inward := state.inward ++ [frame] }.inFlight = state.inFlight := by
  have hcount : { state with inward := state.inward ++ [frame] }.inFlight = state.inFlight := by
    simp [inFlight, List.countP_append, hforeign]
  refine ⟨⟨hcount.trans_le hinv.single, hinv.posted, hinv.outward, ?_, hinv.completions⟩, hcount⟩
  intro other hother hown
  obtain hother | hother := List.mem_append.mp hother
  · exact hinv.inward other hother hown
  · obtain rfl := List.mem_singleton.mp hother
    exact absurd hown hforeign

theorem Circulates.receive (hinv : state.Circulates config) {frame : Frame} {rest : List Frame}
    (hinward : state.inward = frame :: rest) :
    ({ state with inward := rest }.receive config frame).Circulates config ∧
      ({ state with inward := rest }.receive config frame).inFlight = state.inFlight := by
  have hrest : ∀ other ∈ rest, other.dst = srcAddr →
      Incoming config.program state.sentAt state.sendIndex other := fun other hother =>
    hinv.inward other (hinward ▸ List.mem_cons_of_mem _ hother)
  by_cases hdst : frame.dst = srcAddr
  · have hframe := hinv.inward frame (hinward ▸ List.mem_cons_self) hdst
    have hcount : ({ state with inward := rest }.receive config frame).inFlight =
        state.inFlight := by
      rw [RoundTrip.receive, if_pos hdst]
      simp only [inFlight, hinward, List.countP_cons, hdst, List.length_append,
        List.length_singleton, decide_true, if_true]
      omega
    -- The frame is the only packet, so the buffer it goes to holds no other.
    have hsingle := hinv.single
    have hbound := Bool.toNat_le state.started
    simp only [inFlight, hinward, List.countP_cons, hdst, decide_true, if_true] at hsingle
    have hposted : state.posted = [] := List.length_eq_zero_iff.mp (by omega)
    have hcompletions : state.completions = [] := List.length_eq_zero_iff.mp (by omega)
    refine ⟨?_, hcount⟩
    rw [RoundTrip.receive, if_pos hdst] at hcount ⊢
    refine ⟨hcount.trans_le hinv.single, ?_, hinv.outward, hrest, ?_⟩
    · simp [hposted]
    · intro entry hentry
      have hnew : entry = (config.rxSlot state.received, frame.length) := by
        simpa [hcompletions] using hentry
      subst hnew
      dsimp only
      rw [Function.update_self, readBytes_writeBytes]
      exact hframe
  · have hcount : ({ state with inward := rest }.receive config frame).inFlight =
        state.inFlight := by
      rw [RoundTrip.receive, if_neg hdst]
      simp [inFlight, hinward, hdst]
    refine ⟨?_, hcount⟩
    rw [RoundTrip.receive, if_neg hdst] at hcount ⊢
    exact ⟨hcount.trans_le hinv.single, hinv.posted, hinv.outward, hrest, hinv.completions⟩

theorem Circulates.started_of_pos (hinv : state.Circulates config) (hpos : 0 < state.inFlight) :
    state.started = true := by
  have hsingle := hinv.single
  cases hstarted : state.started with
  | true => rfl
  | false =>
      rw [hstarted] at hsingle
      exact absurd hsingle (Nat.not_le_of_lt hpos)

/-- What `process_packet` does with the packet that came back: the cycles are those
since its stamp, and it is answered. -/
theorem Circulates.processPacket_eq (hinv : state.Circulates config) {entry : Nat × Nat}
    {rest : List (Nat × Nat)} (hcompletions : state.completions = entry :: rest)
    (now : BitVec 64) (stack : Buffer) (stamp : BitVec 64) :
    { state with completions := rest }.processPacket config now stack stamp entry =
      ({ state with completions := rest }.account now (now - state.sentAt)).sendPacket config
        stack stamp := by
  have hframe := hinv.completions entry (hcompletions ▸ List.mem_cons_self)
  have hsize : entry.2 = config.program.pktSize := by
    rw [← hframe.length, length_readBytes]
  rw [processPacket, if_neg (not_not_intro hsize)]
  simp only [hframe.stamp_eq]

theorem Circulates.process (hinv : state.Circulates config) {entry : Nat × Nat}
    {rest : List (Nat × Nat)} (hcompletions : state.completions = entry :: rest)
    (now : BitVec 64) (stack : Buffer) (stamp : BitVec 64) :
    ({ state with completions := rest }.processPacket config now stack stamp entry).Circulates
        config ∧
      ({ state with completions := rest }.processPacket config now stack stamp entry).inFlight =
        state.inFlight := by
  have hpos : state.inFlight =
      ({ state with completions := rest }.account now (now - state.sentAt)).inFlight + 1 := by
    simp only [inFlight, account, hcompletions, List.length_cons]
    omega
  have hstarted := hinv.started_of_pos (by omega)
  have hsingle := hinv.single
  rw [hstarted, Bool.toNat_true] at hsingle
  have hidle : ({ state with completions := rest }.account now
      (now - state.sentAt)).inFlight = 0 := by omega
  rw [hinv.processPacket_eq hcompletions, inFlight_sendPacket, hpos]
  exact ⟨.sendPacket hidle hstarted stack stamp, rfl⟩

theorem Circulates.loseOutward (hinv : state.Circulates config) {frame : Frame}
    {rest : List Frame} (houtward : state.outward = frame :: rest) :
    { state with outward := rest }.Circulates config ∧
      { state with outward := rest }.inFlight ≤ state.inFlight := by
  have hcount : { state with outward := rest }.inFlight ≤ state.inFlight := by
    simp only [inFlight, houtward, List.length_cons]
    omega
  exact ⟨⟨hcount.trans hinv.single, hinv.posted, fun other hother =>
    hinv.outward other (houtward ▸ List.mem_cons_of_mem _ hother), hinv.inward,
    hinv.completions⟩, hcount⟩

theorem Circulates.loseInward (hinv : state.Circulates config) {frame : Frame}
    {rest : List Frame} (hinward : state.inward = frame :: rest) :
    { state with inward := rest }.Circulates config ∧
      { state with inward := rest }.inFlight ≤ state.inFlight := by
  have hcount : { state with inward := rest }.inFlight ≤ state.inFlight := by
    simp only [inFlight, hinward, List.countP_cons]
    omega
  exact ⟨⟨hcount.trans hinv.single, hinv.posted, hinv.outward, fun other hother =>
    hinv.inward other (hinward ▸ List.mem_cons_of_mem _ hother), hinv.completions⟩, hcount⟩

/-- Every step keeps the invariant; only a loss takes a packet away, and only the
first packet is sent without another one's return. -/
theorem Circulates.step (hinv : state.Circulates config) (hprivate : Private state action)
    (hstep : RoundTripStep config state action next) :
    next.Circulates config ∧
      next.inFlight + state.started.toNat ≤ state.inFlight + next.started.toNat ∧
      (action ≠ .lose →
        next.inFlight + state.started.toNat = state.inFlight + next.started.toNat) := by
  -- Steps other than the first leave `started` alone, so the counts decide.
  have hcounts : ∀ {after : RoundTrip}, after.started = state.started →
      after.Circulates config ∧ after.inFlight = state.inFlight →
      after.Circulates config ∧
        after.inFlight + state.started.toNat ≤ state.inFlight + after.started.toNat ∧
        (action ≠ .lose →
          after.inFlight + state.started.toNat = state.inFlight + after.started.toNat) := by
    rintro after hstarted ⟨hafter, hcount⟩
    rw [hstarted, hcount]
    exact ⟨hafter, le_refl _, fun _ => rfl⟩
  cases hstep with
  | first stack stamp hstarted =>
      have hidle : state.inFlight = 0 := by
        have hsingle := hinv.single
        rw [hstarted] at hsingle
        exact Nat.le_zero.mp hsingle
      have hcount : (state.firstPacket config stack stamp).inFlight = state.inFlight + 1 :=
        inFlight_sendPacket stack stamp
      refine ⟨@Circulates.sendPacket config { state with started := true } hidle rfl stack stamp,
        ?_, fun _ => ?_⟩
      · rw [hcount, hstarted]
        exact le_refl _
      · rw [hcount, hstarted]
        rfl
  | transmit hposted => exact hcounts rfl (hinv.transmit hposted)
  | reflect houtward => exact hcounts rfl (hinv.reflect houtward)
  | arrive frame => exact hcounts rfl (hinv.arrive hprivate)
  | receive hinward =>
      refine hcounts ?_ (hinv.receive hinward)
      rw [RoundTrip.receive]
      split <;> rfl
  | process now stack stamp hcompletions =>
      refine hcounts ?_ (hinv.process hcompletions now stack stamp)
      rw [hinv.processPacket_eq hcompletions]
      rfl
  | loseOutward houtward =>
      obtain ⟨hafter, hcount⟩ := hinv.loseOutward houtward
      exact ⟨hafter, Nat.add_le_add_right hcount _, fun hkept => absurd rfl hkept⟩
  | loseInward hinward =>
      obtain ⟨hafter, hcount⟩ := hinv.loseInward hinward
      exact ⟨hafter, Nat.add_le_add_right hcount _, fun hkept => absurd rfl hkept⟩

theorem circulates_of_reachable
    (hreach : ((roundTripSystem config).restrict Private).Reachable state) :
    state.Circulates config := by
  refine System.Reachable.invariant ?_ ?_ hreach
  · rintro state ⟨slots, rfl⟩
    exact .of_idle rfl
  · intro state action next _ hinv hstep
    exact (hinv.step hstep.1 hstep.2).1

/-! ## What is measured -/

/-- The cycles of some round trips. -/
def cyclesOf (rounds : List (BitVec 64 × BitVec 64)) : BitVec 64 :=
  (rounds.map fun round => round.2 - round.1).sum

/-- The log with the line of one batch. -/
def logBatch (logged : List (BitVec 64 × BitVec 32)) (batch : List (BitVec 64 × BitVec 64)) :
    List (BitVec 64 × BitVec 32) :=
  logged ++ [(cyclesOf batch, BitVec.ofNat 32 batch.length)]

/-- Each full batch of round trips has its line, and the counters have the rest. -/
structure Measures (state : RoundTrip) : Prop where
  index : state.sendIndex = BitVec.ofNat 64 (state.rounds.length + 1)
  logged : state.logged = consume batchSize logBatch [] state.rounds
  cycles : state.totalCycles = cyclesOf (leftover batchSize state.rounds)
  count : state.packetsCount = BitVec.ofNat 32 (leftover batchSize state.rounds).length

theorem cyclesOf_concat (rounds : List (BitVec 64 × BitVec 64)) (sent now : BitVec 64) :
    cyclesOf (rounds ++ [(sent, now)]) = cyclesOf rounds + (now - sent) := by
  simp [cyclesOf]

theorem Measures.account (hinv : state.Measures) (now : BitVec 64) :
    (state.account now (now - state.sentAt)).Measures := by
  have hlength := length_leftover_lt (by decide : 0 < batchSize) state.rounds
  have hcount : state.packetsCount + 1 =
      BitVec.ofNat 32 ((leftover batchSize state.rounds).length + 1) := by
    rw [hinv.count, BitVec.ofNat_add _ 1]
    rfl
  have htotal : state.totalCycles + (now - state.sentAt) =
      cyclesOf (leftover batchSize state.rounds ++ [(state.sentAt, now)]) := by
    rw [cyclesOf_concat, hinv.cycles]
  have hindex : state.sendIndex + 1 =
      BitVec.ofNat 64 ((state.rounds ++ [(state.sentAt, now)]).length + 1) := by
    rw [hinv.index, List.length_append, List.length_singleton,
      BitVec.ofNat_add (state.rounds.length + 1) 1]
    rfl
  by_cases hbatch : (leftover batchSize state.rounds).length + 1 = batchSize
  · obtain ⟨hconsume, hleft⟩ :=
      @consume_concat_of_eq _ _ _ logBatch [] _ (state.sentAt, now) hbatch
    have hfull : state.packetsCount + 1 = BitVec.ofNat 32 batchSize := by
      rw [hcount, hbatch]
    refine ⟨hindex, ?_, ?_, ?_⟩
    · simp only [RoundTrip.account, if_pos hfull]
      rw [hconsume, logBatch, ← hinv.logged, htotal, hcount, List.length_append,
        List.length_singleton]
    · simp only [RoundTrip.account, if_pos hfull]
      rw [hleft]
      rfl
    · simp only [RoundTrip.account, if_pos hfull]
      rw [hleft]
      rfl
  · obtain ⟨hconsume, hleft⟩ :=
      @consume_concat_of_ne _ _ _ logBatch [] _ (state.sentAt, now) (by decide) hbatch
    have hroom : state.packetsCount + 1 ≠ BitVec.ofNat 32 batchSize := by
      intro hfull
      rw [hcount] at hfull
      have hnat := congrArg BitVec.toNat hfull
      simp only [BitVec.toNat_ofNat] at hnat
      unfold batchSize at *
      omega
    refine ⟨hindex, ?_, ?_, ?_⟩
    · simp only [RoundTrip.account, if_neg hroom]
      rw [hconsume, ← hinv.logged]
    · simp only [RoundTrip.account, if_neg hroom]
      rw [hleft, htotal]
    · simp only [RoundTrip.account, if_neg hroom]
      rw [hleft, hcount, List.length_append, List.length_singleton]

/-- The counters are those of the processed packets alone. -/
theorem Measures.step (hinv : state.Measures) (hcirculates : state.Circulates config)
    (hstep : RoundTripStep config state action next) : next.Measures := by
  cases hstep with
  | first stack stamp _ => exact ⟨hinv.index, hinv.logged, hinv.cycles, hinv.count⟩
  | transmit _ => exact ⟨hinv.index, hinv.logged, hinv.cycles, hinv.count⟩
  | reflect _ => exact ⟨hinv.index, hinv.logged, hinv.cycles, hinv.count⟩
  | arrive _ => exact ⟨hinv.index, hinv.logged, hinv.cycles, hinv.count⟩
  | receive _ =>
      rw [receive]
      split
      · exact ⟨hinv.index, hinv.logged, hinv.cycles, hinv.count⟩
      · exact ⟨hinv.index, hinv.logged, hinv.cycles, hinv.count⟩
  | process now stack stamp hcompletions =>
      rw [hcirculates.processPacket_eq hcompletions]
      have hrest : { state with completions := _ }.Measures :=
        ⟨hinv.index, hinv.logged, hinv.cycles, hinv.count⟩
      obtain ⟨hindex, hlogged, hcycles, hcount⟩ := hrest.account now
      exact ⟨hindex, hlogged, hcycles, hcount⟩
  | loseOutward _ => exact ⟨hinv.index, hinv.logged, hinv.cycles, hinv.count⟩
  | loseInward _ => exact ⟨hinv.index, hinv.logged, hinv.cycles, hinv.count⟩

/-! ## Progress -/

/-- A lossless run in which nothing is processed. -/
structure Moves (config : SenderConfig) (state next : RoundTrip) : Prop where
  path : ((roundTripSystem config).restrict Lossless).Path state next
  rounds : next.rounds = state.rounds
  sentAt : next.sentAt = state.sentAt

theorem Moves.trans {middle : RoundTrip} (hfirst : Moves config state middle)
    (hsecond : Moves config middle next) : Moves config state next :=
  ⟨hfirst.path.trans hsecond.path, hsecond.rounds.trans hfirst.rounds,
    hsecond.sentAt.trans hfirst.sentAt⟩

/-- The NIC discards the foreign frames in front of the packet and delivers it. -/
theorem Circulates.exists_received (hinv : state.Circulates config)
    (hown : ∃ frame ∈ state.inward, frame.dst = srcAddr) :
    ∃ next, Moves config state next ∧ next.Circulates config ∧ next.completions ≠ [] := by
  induction hinward : state.inward generalizing state with
  | nil =>
      obtain ⟨frame, hframe, -⟩ := hown
      exact absurd (hinward ▸ hframe) List.not_mem_nil
  | cons frame rest ih =>
      have hpos : 0 < state.inward.countP fun frame => frame.dst = srcAddr := by
        simpa [List.countP_pos_iff] using hown
      have hroom : state.completions.length < 2 ^ logRingDepth := by
        have hsingle := hinv.single
        have hbound := Bool.toNat_le state.started
        have hdepth : 1 < 2 ^ logRingDepth := by decide
        unfold inFlight at hsingle
        omega
      have hpath := (@RoundTripStep.receive config state _ _ hinward hroom).lossless_path
        trivial (by simp)
      have hnext := (hinv.receive hinward).1
      by_cases hdst : frame.dst = srcAddr
      · rw [RoundTrip.receive, if_pos hdst] at hpath hnext
        exact ⟨_, ⟨hpath, rfl, rfl⟩, hnext, by simp⟩
      · rw [RoundTrip.receive, if_neg hdst] at hpath hnext
        have hlater : ∃ other ∈ rest, other.dst = srcAddr := by
          obtain ⟨other, hother, hdst'⟩ := hown
          rw [hinward] at hother
          obtain rfl | hother := List.mem_cons.mp hother
          · exact absurd hdst' hdst
          · exact ⟨other, hother, hdst'⟩
        obtain ⟨last, hmoves, hlast⟩ := ih hnext hlater rfl
        exact ⟨last, .trans ⟨hpath, rfl, rfl⟩ hmoves, hlast⟩

theorem Circulates.exists_reflected (hinv : state.Circulates config)
    (houtward : state.outward ≠ []) :
    ∃ next, Moves config state next ∧ next.Circulates config ∧ next.completions ≠ [] := by
  obtain ⟨frame, rest, hfront⟩ := List.exists_cons_of_ne_nil houtward
  have hframe := hinv.outward frame (hfront ▸ List.mem_cons_self)
  have hpath := (@RoundTripStep.reflect config state _ _ hfront).lossless_path trivial (by simp)
  obtain ⟨last, hmoves, hlast⟩ := (hinv.reflect hfront).1.exists_received
    ⟨frame.swapMacs, List.mem_append_right _ List.mem_cons_self,
      (Frame.dst_swapMacs hframe.valid.header).trans hframe.src⟩
  exact ⟨last, .trans ⟨hpath, rfl, rfl⟩ hmoves, hlast⟩

/-- Wherever the packet is, it can get to the sender. -/
theorem Circulates.exists_returned (hinv : state.Circulates config) (hpos : state.inFlight ≠ 0) :
    ∃ next, Moves config state next ∧ next.Circulates config ∧ next.completions ≠ [] := by
  by_cases hcompletions : state.completions = []
  · by_cases hown : ∃ frame ∈ state.inward, frame.dst = srcAddr
    · exact hinv.exists_received hown
    · by_cases houtward : state.outward = []
      · have hposted : state.posted ≠ [] := by
          intro hposted
          apply hpos
          simp only [inFlight, hposted, houtward, hcompletions, List.length_nil,
            Nat.add_zero, Nat.zero_add, List.countP_eq_zero, decide_eq_true_eq]
          exact fun frame hframe hdst => hown ⟨frame, hframe, hdst⟩
        obtain ⟨entry, rest, hfront⟩ := List.exists_cons_of_ne_nil hposted
        have hpath := (@RoundTripStep.transmit config state _ _ hfront).lossless_path trivial
          (by simp)
        have hnext := (hinv.transmit hfront).1
        rw [hinv.transmit_eq hfront] at hpath hnext
        obtain ⟨last, hmoves, hlast⟩ := hnext.exists_reflected (by simp)
        exact ⟨last, .trans ⟨hpath, rfl, rfl⟩ hmoves, hlast⟩
      · exact hinv.exists_reflected houtward
  · exact ⟨state, ⟨.refl state, rfl, rfl⟩, hinv, hcompletions⟩

/-- One more round trip, at whatever time its end is processed. -/
theorem Circulates.exists_round (hinv : state.Circulates config) (hpos : state.inFlight ≠ 0)
    (now : BitVec 64) :
    ∃ next, ((roundTripSystem config).restrict Lossless).Path state next ∧
      next.Circulates config ∧ next.inFlight ≠ 0 ∧
      next.rounds = state.rounds ++ [(state.sentAt, now)] := by
  obtain ⟨middle, hmoves, hmiddle, hcompletions⟩ := hinv.exists_returned hpos
  obtain ⟨entry, rest, hfront⟩ := List.exists_cons_of_ne_nil hcompletions
  have hstep := @RoundTripStep.process config middle _ _ now (fun _ => 0) 0 hfront
  obtain ⟨hnext, hcount⟩ := hmiddle.process hfront now (fun _ => 0) 0
  refine ⟨_, hmoves.path.trans (hstep.lossless_path trivial (by simp)), hnext, ?_, ?_⟩
  · rw [hcount]
    simp [inFlight, hfront]
  · rw [hmiddle.processPacket_eq hfront, ← hmoves.rounds, ← hmoves.sentAt]
    rfl

/-- The network may lose the packet when it has just been sent. -/
theorem Circulates.exists_lost (hinv : state.Circulates config) {entry : Nat × Nat}
    {rest : List (Nat × Nat)} (hposted : state.posted = entry :: rest) :
    ∃ next, ((roundTripSystem config).restrict Private).Path state next ∧
      next.started = state.started ∧ next.inFlight = 0 ∧ next.rounds = state.rounds := by
  have hsingle := hinv.single
  have hbound := Bool.toNat_le state.started
  simp only [inFlight, hposted, List.length_cons] at hsingle
  have houtward : state.outward = [] := List.length_eq_zero_iff.mp (by omega)
  have hsent := (@RoundTripStep.transmit config state _ _ hposted).private_path trivial
  rw [hinv.transmit_eq hposted, houtward] at hsent
  refine ⟨{ state with posted := rest, outward := [] },
    hsent.trans ((RoundTripStep.loseOutward rfl).private_path trivial), rfl, ?_, rfl⟩
  simp only [inFlight, List.length_nil]
  omega

/-- Once the packet is lost there is none, and nothing is processed any more. -/
theorem Circulates.stopped_step (hinv : state.Circulates config) (hstarted : state.started = true)
    (hidle : state.inFlight = 0) (hprivate : Private state action)
    (hstep : RoundTripStep config state action next) :
    next.started = true ∧ next.inFlight = 0 ∧ next.rounds = state.rounds := by
  have hcount := (hinv.step hprivate hstep).2.1
  obtain ⟨-, -, -, hcompletions⟩ := idle_of_inFlight_eq_zero hidle
  have hkept : next.started = state.started ∧ next.rounds = state.rounds := by
    cases hstep with
    | first _ _ hfresh => exact absurd hstarted (hfresh ▸ Bool.false_ne_true)
    | receive _ =>
        rw [RoundTrip.receive]
        split <;> exact ⟨rfl, rfl⟩
    | process _ _ _ hfront =>
        exact absurd (hcompletions.symm.trans hfront) (List.cons_ne_nil _ _).symm
    | transmit _ => exact ⟨rfl, rfl⟩
    | reflect _ => exact ⟨rfl, rfl⟩
    | arrive _ => exact ⟨rfl, rfl⟩
    | loseOutward _ => exact ⟨rfl, rfl⟩
    | loseInward _ => exact ⟨rfl, rfl⟩
  rw [hkept.1] at hcount
  exact ⟨hkept.1.trans hstarted, by omega, hkept.2⟩

end RoundTrip

section Results

variable {config : SenderConfig} {state : RoundTrip}

/-- The state after the first packet of a run on cleared buffers. -/
def RoundTrip.begun (config : SenderConfig) : RoundTrip :=
  (RoundTrip.init fun _ _ => 0).firstPacket config (fun _ => 0) 0

theorem begun_reachable (config : SenderConfig) :
    ((roundTripSystem config).restrict Lossless).Reachable (.begun config) :=
  .path (.start ⟨_, rfl⟩) ((RoundTripStep.first _ _ rfl).lossless_path trivial (by simp))

theorem private_of_lossless
    (hreach : ((roundTripSystem config).restrict Lossless).Reachable state) :
    ((roundTripSystem config).restrict Private).Reachable state :=
  hreach.mono_restrict fun _ _ hallowed => hallowed.1

/-- Without losses, and with nobody else sending to the sender's address, the benchmark
goes on for ever: after the first packet there is always exactly one, and round trips
can end at any clock readings whatever. -/
theorem roundTrips_continue
    (hreach : ((roundTripSystem config).restrict Lossless).Reachable state)
    (hstarted : state.started = true) (nows : List (BitVec 64)) :
    state.inFlight = 1 ∧
      ∃ next, ((roundTripSystem config).restrict Lossless).Path state next ∧
        next.rounds.map Prod.snd = state.rounds.map Prod.snd ++ nows := by
  have hcount : state.inFlight = state.started.toNat := by
    refine @System.Reachable.invariant _ _ _
      (fun state => state.inFlight = state.started.toNat) ?_ ?_ _ hreach
    · rintro state ⟨slots, rfl⟩
      rfl
    · intro state action next hprior hinv hstep
      have hcirculates := RoundTrip.circulates_of_reachable (private_of_lossless hprior)
      have hkept := (hcirculates.step hstep.1.1 hstep.2).2.2 hstep.1.2
      omega
  rw [hstarted, Bool.toNat_true] at hcount
  refine ⟨hcount, ?_⟩
  have hinv := RoundTrip.circulates_of_reachable (private_of_lossless hreach)
  have hpos : state.inFlight ≠ 0 := by omega
  clear hreach hstarted hcount
  -- One round trip for each reading, the packet still there after it.
  induction nows generalizing state with
  | nil => exact ⟨state, .refl state, (List.append_nil _).symm⟩
  | cons now nows ih =>
      obtain ⟨middle, hpath, hmiddle, hpos', hrounds⟩ := hinv.exists_round hpos now
      obtain ⟨next, hrest, hnext⟩ := ih hmiddle hpos'
      refine ⟨next, hpath.trans hrest, ?_⟩
      rw [hnext, hrounds, List.map_append, List.append_assoc]
      rfl

theorem roundTrips_continue_twice :
    ∃ state next,
      ((roundTripSystem ⟨.dpaSendNtp, false, true⟩).restrict Lossless).Path state next ∧
      state.inFlight = 1 ∧ next.rounds.map Prod.snd = [5, 9] := by
  obtain ⟨hcount, next, hpath, hnext⟩ :=
    roundTrips_continue (begun_reachable ⟨.dpaSendNtp, false, true⟩) rfl [5, 9]
  exact ⟨_, next, hpath, hcount, hnext⟩

/-- A lost packet ends the benchmark: no run in which nobody else sends to the sender's
address goes on to another round trip. -/
theorem roundTrips_stop
    (hreach : ((roundTripSystem config).restrict Private).Reachable state)
    (hstarted : state.started = true) (hlost : state.inFlight = 0) {next : RoundTrip}
    (hpath : ((roundTripSystem config).restrict Private).Path state next) :
    next.inFlight = 0 ∧ next.rounds = state.rounds := by
  have hstopped : next.started = true ∧ next.inFlight = 0 ∧ next.rounds = state.rounds := by
    induction hpath with
    | refl => exact ⟨hstarted, hlost, rfl⟩
    | step hprior hstep ih =>
        obtain ⟨hsent, hidle, hrounds⟩ := ih
        have hinv := RoundTrip.circulates_of_reachable (hreach.path hprior)
        obtain ⟨hsent', hidle', hrounds'⟩ := hinv.stopped_step hsent hidle hstep.1 hstep.2
        exact ⟨hsent', hidle', hrounds'.trans hrounds⟩
  exact hstopped.2

theorem roundTrips_stop_first :
    ∃ state, ((roundTripSystem ⟨.dpaSend, true, true⟩).restrict Private).Reachable state ∧
      state.started = true ∧
      ∀ next, ((roundTripSystem ⟨.dpaSend, true, true⟩).restrict Private).Path state next →
        next.rounds = [] := by
  have hreach := private_of_lossless (begun_reachable ⟨.dpaSend, true, true⟩)
  have hinv := RoundTrip.circulates_of_reachable hreach
  obtain ⟨lost, hpath, hstarted, hidle, hrounds⟩ := hinv.exists_lost rfl
  refine ⟨lost, hreach.path hpath, hstarted, fun next hlater => ?_⟩
  exact (roundTrips_stop (hreach.path hpath) hstarted hidle hlater).2.trans hrounds

/-- After the first packet a frame to the sender's address gets to the first receive
buffer. -/
theorem foreign_received (config : SenderConfig) {frame : Frame} (hdst : frame.dst = srcAddr) :
    ∃ state, (roundTripSystem config).Reachable state ∧
      state.completions = [(config.rxSlot 0, frame.length)] ∧
      (∃ buffer, state.slots (config.rxSlot 0) = writeBytes buffer frame) ∧
      state.packetsCount = 0 ∧ state.totalCycles = 0 ∧ state.txBuffIdx = 1 ∧
      state.posted = [(0, config.program.pktSize)] := by
  have hreach : (roundTripSystem config).Reachable
      ({ RoundTrip.begun config with inward := [] }.receive config frame) :=
    ((begun_reachable config).of_restrict.step (.arrive frame)).step
      (.receive rfl (Nat.two_pow_pos _))
  refine ⟨_, hreach, ?_⟩
  rw [RoundTrip.receive, if_pos hdst]
  exact ⟨rfl, ⟨_, Function.update_self ..⟩, rfl, rfl, rfl, rfl⟩

/-- The rule on the address is what keeps others out. One frame of the packet's size
to the sender's address is counted as a round trip, with whatever it has in the place
of the stamp, and answered by a second packet; and where the queues share their
buffers it has taken the place of the first packet, which was not yet sent. -/
theorem foreign_packet_counted (config : SenderConfig) {frame : Frame}
    (hdst : frame.dst = srcAddr) (hlength : frame.length = config.program.pktSize)
    (now : BitVec 64) :
    ∃ state, (roundTripSystem config).Reachable state ∧ state.packetsCount = 1 ∧
      state.totalCycles =
        now - load64 (writeBytes (fun _ => 0) frame) config.program.stampOffset ∧
      state.posted = [(0, config.program.pktSize), (1, config.program.pktSize)] ∧
      (config.txSharedRxBuffer = true →
        readBytes (state.slots 0) config.program.pktSize = frame) := by
  obtain ⟨state, hreach, hcompletions, ⟨buffer, hbuffer⟩, hcount, htotal, hindex, hposted⟩ :=
    foreign_received config hdst
  have hstamp : load64 (state.slots (config.rxSlot 0)) config.program.stampOffset =
      load64 (writeBytes (fun _ => 0) frame) config.program.stampOffset := by
    obtain ⟨-, hlow, hhigh⟩ := config.program.offsets
    rw [hbuffer]
    exact loadWord_congr fun index hword => writeBytes_congr _ _ (by omega)
  have hprocessed := hreach.step (.process now (fun _ => 0) 0 hcompletions)
  have hslot : ((1 : BitVec 32) &&& ringMask logRingDepth).toNat = 1 := by decide
  have hfew : (0 : BitVec 32) + 1 ≠ BitVec.ofNat 32 batchSize := by decide
  refine ⟨_, hprocessed, ?_⟩
  rw [RoundTrip.processPacket, if_neg (not_not_intro hlength)]
  simp only [RoundTrip.sendPacket, RoundTrip.account, hcount, htotal, hindex, hposted, hstamp,
    hslot, if_neg hfew]
  refine ⟨rfl, zero_add _, rfl, fun hshared => ?_⟩
  have hfirst : config.rxSlot 0 = 0 := by
    rw [SenderConfig.rxSlot, if_pos hshared]
    rfl
  rw [Function.update_of_ne Nat.zero_ne_one, ← hlength, ← hfirst, hbuffer]
  exact readBytes_writeBytes buffer frame

theorem foreign_packet_counted_copy :
    ∃ state, (roundTripSystem ⟨.dpaSend, false, true⟩).Reachable state ∧
      state.packetsCount = 1 ∧
      readBytes (state.slots 0) 64 = srcAddr ++ List.replicate 58 0 := by
  obtain ⟨state, hreach, hcount, -, -, hplace⟩ := foreign_packet_counted ⟨.dpaSend, false, true⟩
    (show Frame.dst (srcAddr ++ List.replicate 58 0) = srcAddr by decide) (by decide) 0
  exact ⟨state, hreach, hcount, hplace rfl⟩

end Results

end BenchBF3.Dpa
