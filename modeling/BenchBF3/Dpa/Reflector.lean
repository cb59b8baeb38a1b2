import BenchBF3.Dpa.Completion
import BenchBF3.Dpa.MacSwap
import BenchBF3.Dpa.SendQueue

/-! # The zero-copy reflector

A received frame stays in its receive buffer: `process_packet` swaps its MAC
addresses in place and hands the same buffer to the send queue; `step_rq` then
posts the buffer for receiving again. Nothing tells the device when the NIC has
transmitted it. Frames come out swapped and in order in the runs in which no
buffer is filled again before it was transmitted.
-/

namespace BenchBF3.Dpa

open Foundation

/-! ## The device and the NIC -/

/-- The fields of a receive completion that `receive_packet` reads. -/
structure RxCqe where
  wqeCounter : BitVec 16
  byteCnt : BitVec 32

/-- The next call of the event handler's inner loop. -/
inductive HandlerPc
  | processPacket
  | stepRq
  | stepCq

/-- Device memory and contexts, with the frames received and transmitted so far.
A buffer address is kept as the number of its entry in the shared region. -/
structure Reflector where
  buffers : Nat → Buffer
  rqRing : Nat → Nat
  rqIdxMask : BitVec 32
  rqDbr : BitVec 32
  cqRing : Nat → Cqe RxCqe
  cqCtx : CqCtx
  sq : SendQueue Nat
  sqDb : BitVec 32
  pc : HandlerPc
  received : List Frame
  transmitted : List Frame

/-- `RQ::init_dpa_rq_ring`: one data chunk for each receive WQE, in order. -/
def initDpaRqRing : Nat → Nat := fun index => index

namespace Reflector

/-- The host's allocation and `dpa_refactor_mt_device_init`. -/
def init (logDepth : Nat) (buffers : Nat → Buffer) (blank : RxCqe) (sqRing : Nat → SqeSeg Nat)
    (sqNumber lkey : BitVec 32) : Reflector where
  buffers
  rqRing := initDpaRqRing
  rqIdxMask := ringMask logDepth
  rqDbr := BitVec.ofNat 32 (2 ^ logDepth)
  cqRing := allocateCqMemory blank
  cqCtx := initCq logDepth
  sq := SendQueue.initSendSq ⟨initSq logDepth sqNumber, sqRing⟩ (2 ^ logDepth) lkey
  sqDb := 0
  pc := .processPacket
  received := []
  transmitted := []

/-- The buffer and the size of the packet of the current CQE. -/
def receivePacket (state : Reflector) : Nat × BitVec 32 :=
  let cqe := (state.cqRing state.cqCtx.cqe).value
  let rqWqeIdx := cqe.wqeCounter.setWidth 32
  (state.rqRing (rqWqeIdx &&& state.rqIdxMask).toNat, cqe.byteCnt)

def processPacket (state : Reflector) : Reflector :=
  let (rqData, dataSz) := state.receivePacket
  let (sqDb, sq) := (state.sq.prepareSendPacket rqData dataSz).finishSendPacket
  { state with
    buffers := Function.update state.buffers rqData (swapInPlace (state.buffers rqData))
    sq
    sqDb
    pc := .stepRq }

/-- The NIC writes a frame to the buffer of the next receive WQE and posts its
completion. -/
def receive (logDepth : Nat) (state : Reflector) (frame : Frame) : Reflector :=
  let count := state.received.length
  let address := state.rqRing (count % 2 ^ logDepth)
  { state with
    buffers := Function.update state.buffers address (writeBytes (state.buffers address) frame)
    cqRing := Function.update state.cqRing (count % 2 ^ logDepth)
      ⟨lapBit (2 ^ logDepth) count, BitVec.ofNat 16 count, BitVec.ofNat 32 frame.length⟩
    received := state.received ++ [frame] }

end Reflector

inductive ReflectorAction
  | receive (frame : Frame)
  | transmit
  | processPacket
  | stepRq
  | stepCq

/-- The NIC receives while a posted buffer is available and transmits the WQE
after the last one sent up to the rung producer index; the device runs its loop. -/
inductive ReflectorStep (logDepth : Nat) : Reflector → ReflectorAction → Reflector → Prop
  | receive {state : Reflector} {frame : Frame} (hvalid : frame.Valid)
      (hposted : BitVec.ofNat 32 state.received.length ≠ state.rqDbr) :
      ReflectorStep logDepth state (.receive frame) (state.receive logDepth frame)
  | transmit {state : Reflector} {address : Nat} {byteCount : BitVec 32}
      (hrung : BitVec.ofNat 32 state.transmitted.length ≠ state.sqDb)
      (hpacket : state.sq.packet (state.transmitted.length % 2 ^ logDepth) =
        some (address, byteCount)) :
      ReflectorStep logDepth state .transmit
        { state with
          transmitted := state.transmitted ++
            [readBytes (state.buffers address) byteCount.toNat] }
  | processPacket {state : Reflector} (hpc : state.pc = .processPacket)
      (hready : state.cqCtx.ready state.cqRing = true) :
      ReflectorStep logDepth state .processPacket state.processPacket
  | stepRq {state : Reflector} (hpc : state.pc = .stepRq) :
      ReflectorStep logDepth state .stepRq
        { state with rqDbr := state.rqDbr + 1, pc := .stepCq }
  | stepCq {state : Reflector} (hpc : state.pc = .stepCq) :
      ReflectorStep logDepth state .stepCq
        { state with cqCtx := Dpa.stepCq state.cqCtx, pc := .processPacket }

def reflectorSystem (logDepth : Nat) : System Reflector ReflectorAction where
  start state := ∃ buffers blank sqRing sqNumber lkey,
    state = Reflector.init logDepth buffers blank sqRing sqNumber lkey
  step := ReflectorStep logDepth

/-- Every frame comes in while fewer than a whole ring of received frames wait
for their transmission, so no receive finds its buffer still to be sent. -/
def NoOverrun (logDepth : Nat) (state : Reflector) : ReflectorAction → Prop
  | .receive _ => state.received.length < state.transmitted.length + 2 ^ logDepth
  | _ => True

/-! ## The order of frames -/

/-- The completions of the received frames. -/
def completions (received : List Frame) : List RxCqe :=
  received.mapIdx fun index frame => ⟨BitVec.ofNat 16 index, BitVec.ofNat 32 frame.length⟩

/-- The buffer holds a frame: swapped once it is processed, before that as it came. -/
def HoldsFrame (received : List Frame) (processed : Nat) : Nat → Buffer → Prop :=
  Logged (fun n (frame : Frame) buffer => readBytes buffer frame.length =
    if n < processed then frame.swapMacs else frame) received

/-- The send WQE points to the buffer of a frame. -/
def SendsFrame (logDepth : Nat) (received : List Frame) :
    Nat → Option (Nat × BitVec 32) → Prop :=
  Logged (fun n frame packet =>
    packet = some (n % 2 ^ logDepth, BitVec.ofNat 32 frame.length)) received

/-- CQEs that are processed and not yet stepped over. -/
def HandlerPc.unstepped : HandlerPc → Nat
  | .processPacket => 0
  | _ => 1

/-- The three rings agree on which frames are received, processed and sent. -/
structure Reflector.InOrder (logDepth : Nat) (state : Reflector) (processed : Nat) : Prop where
  transmitted_le : state.transmitted.length ≤ processed
  processed_le : processed ≤ state.received.length
  span : state.received.length ≤ state.transmitted.length + 2 ^ logDepth
  transmitted_eq : state.transmitted =
    (state.received.map Frame.swapMacs).take state.transmitted.length
  valid : ∀ frame ∈ state.received, frame.Valid
  rqRing : state.rqRing = initDpaRqRing
  rqIdxMask : state.rqIdxMask = ringMask logDepth
  buffers : Window state.buffers (2 ^ logDepth) (HoldsFrame state.received processed)
    state.transmitted.length state.received.length
  packets : Window state.sq.packet (2 ^ logDepth) (SendsFrame logDepth state.received)
    state.transmitted.length processed
  published : Published state.cqRing logDepth (completions state.received) processed
  cq_at : ∃ consumed, consumed + state.pc.unstepped = processed ∧
    state.cqCtx.At logDepth consumed
  sq_at : state.sq.At logDepth processed processed
  sqDb : state.sqDb = BitVec.ofNat 32 processed

@[simp] theorem length_completions (received : List Frame) :
    (completions received).length = received.length :=
  List.length_mapIdx

theorem completions_append (received : List Frame) (frame : Frame) :
    completions (received ++ [frame]) = completions received ++
      [⟨BitVec.ofNat 16 received.length, BitVec.ofNat 32 frame.length⟩] := by
  simp [completions, List.mapIdx_append]

theorem toNat_byteCnt {frame : Frame} (hvalid : frame.Valid) :
    (BitVec.ofNat 32 frame.length).toNat = frame.length := by
  have hfits := hvalid.fits
  rw [BitVec.toNat_ofNat]
  apply Nat.mod_eq_of_lt
  simp only [logWqDataEntryBsize] at hfits
  omega

/-- The 16-bit WQE counter selects the receive WQE of the frame. -/
theorem toNat_wqeCounter {logDepth : Nat} (hdepth : logDepth ≤ 15) (count : Nat) :
    ((BitVec.ofNat 16 count).setWidth 32 &&& ringMask logDepth).toNat = count % 2 ^ logDepth := by
  have hwide : (BitVec.ofNat 16 count).setWidth 32 = BitVec.ofNat 32 (count % 2 ^ 16) := by
    apply BitVec.eq_of_toNat_eq
    simp
  rw [hwide, ringMask, toNat_and_mask (by omega)]
  exact Nat.mod_mod_of_dvd count (Nat.pow_dvd_pow 2 (by omega))

section Steps

variable {logDepth processed : Nat} {state : Reflector}

theorem Reflector.init_inOrder (logDepth : Nat) (buffers : Nat → Buffer) (blank : RxCqe)
    (sqRing : Nat → SqeSeg Nat) (sqNumber lkey : BitVec 32) :
    (init logDepth buffers blank sqRing sqNumber lkey).InOrder logDepth 0 where
  transmitted_le := le_rfl
  processed_le := le_rfl
  span := Nat.zero_le _
  transmitted_eq := rfl
  valid := nofun
  rqRing := rfl
  rqIdxMask := rfl
  buffers := Window.empty _ _ _ _
  packets := Window.empty _ _ _ _
  published := allocateCqMemory_published blank logDepth
  cq_at := ⟨0, rfl, initCq_at logDepth⟩
  sq_at := SendQueue.initSendSq_at logDepth _ sqNumber lkey sqRing
  sqDb := rfl

/-- A frame that comes in while its cell is not waiting for transmission. -/
theorem Reflector.InOrder.receive (hinv : state.InOrder logDepth processed) {frame : Frame}
    (hvalid : frame.Valid)
    (hroom : state.received.length < state.transmitted.length + 2 ^ logDepth) :
    (state.receive logDepth frame).InOrder logDepth processed := by
  have htransmitted := hinv.transmitted_le
  have hprocessed := hinv.processed_le
  have hlength : (state.received ++ [frame]).length = state.received.length + 1 := by simp
  refine { hinv with
    processed_le := ?_
    span := ?_
    transmitted_eq := ?_
    valid := ?_
    buffers := ?_
    packets := ?_
    published := ?_ }
  · change processed ≤ (state.received ++ [frame]).length
    omega
  · change (state.received ++ [frame]).length ≤ _
    rw [hlength]
    exact hroom
  · change state.transmitted =
      ((state.received ++ [frame]).map Frame.swapMacs).take state.transmitted.length
    rw [List.map_append, List.take_append_of_le_length (by simp; omega)]
    exact hinv.transmitted_eq
  · intro other hmem
    rcases List.mem_append.mp hmem with hold | hnew
    · exact hinv.valid other hold
    · rw [List.mem_singleton.mp hnew]
      exact hvalid
  · change Window (Function.update state.buffers (state.rqRing (state.received.length %
      2 ^ logDepth)) (writeBytes _ frame)) _ (HoldsFrame (state.received ++ [frame]) processed)
      state.transmitted.length (state.received ++ [frame]).length
    rw [hlength, hinv.rqRing]
    apply hinv.buffers.record hroom
    rw [if_neg (by omega)]
    exact readBytes_writeBytes _ frame
  · exact hinv.packets.extend hprocessed frame
  · change Published (Function.update state.cqRing _ _) logDepth
      (completions (state.received ++ [frame])) processed
    have hwrite := hinv.published.write (by rw [length_completions]; omega)
      ⟨BitVec.ofNat 16 state.received.length, BitVec.ofNat 32 frame.length⟩
    rw [length_completions] at hwrite
    rw [completions_append]
    exact hwrite

/-- The next frame to be sent is still in its buffer, swapped. -/
theorem Reflector.InOrder.next (hinv : state.InOrder logDepth processed)
    (hlt : state.transmitted.length < processed) :
    ∃ frame address byteCount,
      (state.received.map Frame.swapMacs)[state.transmitted.length]? = some frame ∧
      state.sq.packet (state.transmitted.length % 2 ^ logDepth) = some (address, byteCount) ∧
      readBytes (state.buffers address) byteCount.toNat = frame := by
  have hprocessed := hinv.processed_le
  obtain ⟨frame, hframe, hpacket⟩ := hinv.packets _ le_rfl hlt
  obtain ⟨frame', hframe', hbuffer⟩ := hinv.buffers _ le_rfl (hlt.trans_le hprocessed)
  obtain rfl : frame = frame' := Option.some.inj (hframe.symm.trans hframe')
  refine ⟨frame.swapMacs, _, _, by simp [hframe], hpacket, ?_⟩
  rw [toNat_byteCnt (hinv.valid frame (List.mem_of_getElem? hframe)), hbuffer,
    if_pos hlt]

theorem Reflector.InOrder.transmit (hinv : state.InOrder logDepth processed) {address : Nat}
    {byteCount : BitVec 32}
    (hrung : BitVec.ofNat 32 state.transmitted.length ≠ state.sqDb)
    (hpacket : state.sq.packet (state.transmitted.length % 2 ^ logDepth) =
      some (address, byteCount)) :
    Reflector.InOrder logDepth
      { state with
        transmitted := state.transmitted ++
          [readBytes (state.buffers address) byteCount.toNat] } processed := by
  have hprocessed := hinv.processed_le
  have hspan := hinv.span
  -- The doorbell has been rung for every processed frame and for no other.
  have hlt : state.transmitted.length < processed := by
    apply hinv.transmitted_le.lt_of_ne
    intro heq
    exact hrung (by rw [hinv.sqDb, heq])
  obtain ⟨frame, address', byteCount', hframe, hpacket', hbuffer⟩ := hinv.next hlt
  obtain ⟨rfl, rfl⟩ : address = address' ∧ byteCount = byteCount' := by
    simpa using hpacket.symm.trans hpacket'
  have hlength : (state.transmitted ++
      [readBytes (state.buffers address) byteCount.toNat]).length =
      state.transmitted.length + 1 := by simp
  refine { hinv with
    transmitted_le := ?_
    span := ?_
    transmitted_eq := ?_
    buffers := ?_
    packets := ?_ }
  · change (state.transmitted ++ _).length ≤ _
    rw [hlength]
    exact hlt
  · change state.received.length ≤ (state.transmitted ++ _).length + _
    rw [hlength]
    omega
  · change _ = (state.received.map Frame.swapMacs).take (state.transmitted ++ _).length
    rw [hlength, List.take_add_one, ← hinv.transmitted_eq, hframe, hbuffer]
    rfl
  · change Window _ _ _ (state.transmitted ++ _).length _
    rw [hlength]
    exact hinv.buffers.mono (Nat.le_succ _) le_rfl
  · change Window _ _ _ (state.transmitted ++ _).length _
    rw [hlength]
    exact hinv.packets.mono (Nat.le_succ _) le_rfl

/-- A set owner bit means that the next frame is there; its CQE says where. -/
theorem Reflector.InOrder.receivePacket_eq (hinv : state.InOrder logDepth processed)
    (hdepth : logDepth ≤ 15) (hpc : state.pc = .processPacket)
    (hready : state.cqCtx.ready state.cqRing = true) :
    ∃ frame, state.received[processed]? = some frame ∧
      state.receivePacket = (processed % 2 ^ logDepth, BitVec.ofNat 32 frame.length) := by
  obtain ⟨consumed, hconsumed, hat⟩ := hinv.cq_at
  -- Before `process_packet` the consumer index is on the next frame.
  obtain rfl : consumed = processed := by simpa [hpc, HandlerPc.unstepped] using hconsumed
  obtain ⟨-, hvalue⟩ := hinv.published.ready_iff hat (by simpa using hinv.processed_le)
  specialize hvalue hready
  rw [completions, List.getElem?_mapIdx, Option.map_eq_some_iff] at hvalue
  obtain ⟨frame, hframe, hcqe⟩ := hvalue
  refine ⟨frame, hframe, ?_⟩
  simp only [Reflector.receivePacket, ← hcqe, hinv.rqRing, hinv.rqIdxMask, initDpaRqRing,
    toNat_wqeCounter hdepth]

theorem Reflector.InOrder.processPacket (hinv : state.InOrder logDepth processed)
    (hdepth : logDepth ≤ 15) (hpc : state.pc = .processPacket)
    (hready : state.cqCtx.ready state.cqRing = true) :
    state.processPacket.InOrder logDepth (processed + 1) := by
  obtain ⟨frame, hframe, hpacket⟩ := hinv.receivePacket_eq hdepth hpc hready
  obtain ⟨consumed, hconsumed, hat⟩ := hinv.cq_at
  obtain ⟨hrung, hqueue⟩ := (hinv.sq_at.prepare (processed % 2 ^ logDepth)
    (BitVec.ofNat 32 frame.length)).finish
  have htransmitted := hinv.transmitted_le
  have hspan := hinv.span
  have hlt : processed < state.received.length := (List.getElem?_eq_some_iff.mp hframe).1
  unfold Reflector.processPacket
  rw [hpacket]
  refine { hinv with
    transmitted_le := htransmitted.trans (Nat.le_succ _)
    processed_le := hlt
    buffers := ?_
    packets := ?_
    published := hinv.published.consume
    cq_at := ⟨consumed, ?_, hat⟩
    sq_at := hqueue
    sqDb := hrung }
  · -- Only the buffer of this frame changes, from the frame to its swap.
    obtain ⟨frame', hframe', hholds⟩ := hinv.buffers processed htransmitted hlt
    obtain rfl : frame = frame' := Option.some.inj (hframe.symm.trans hframe')
    rw [if_neg (Nat.lt_irrefl processed)] at hholds
    have hswap : Window (Function.update state.buffers (processed % 2 ^ logDepth)
        (swapInPlace (state.buffers (processed % 2 ^ logDepth)))) (2 ^ logDepth)
        (HoldsFrame state.received (processed + 1)) state.transmitted.length
        state.received.length := by
      refine hinv.buffers.update_mem hspan htransmitted hlt ⟨frame, hframe, ?_⟩ ?_
      · dsimp only
        rw [if_pos (Nat.lt_succ_self processed)]
        exact readBytes_swapInPlace (hinv.valid frame (List.mem_of_getElem? hframe)) hholds
      · intro n buffer hne hother
        have hiff : n < processed + 1 ↔ n < processed := by omega
        simpa only [HoldsFrame, Logged, hiff] using hother
    exact hswap
  · change Window (state.sq.prepareSendPacket _ _).packet _ (SendsFrame logDepth state.received)
      state.transmitted.length (processed + 1)
    rw [hinv.sq_at.packet_prepare (by omega)]
    exact hinv.packets.push (by omega) ⟨frame, hframe, rfl⟩
  · simpa [hpc, HandlerPc.unstepped] using hconsumed

/-- Before `process_packet` the owner bit is set as soon as a frame is left. -/
theorem Reflector.InOrder.ready (hinv : state.InOrder logDepth processed)
    (hpc : state.pc = .processPacket) (hlt : processed < state.received.length) :
    state.cqCtx.ready state.cqRing = true := by
  obtain ⟨consumed, hconsumed, hat⟩ := hinv.cq_at
  obtain rfl : consumed = processed := by simpa [hpc, HandlerPc.unstepped] using hconsumed
  apply (hinv.published.ready_iff hat (by simpa using hinv.processed_le)).1.mpr
  simpa using hlt

theorem Reflector.InOrder.stepRq (hinv : state.InOrder logDepth processed)
    (hpc : state.pc = .stepRq) :
    Reflector.InOrder logDepth { state with rqDbr := state.rqDbr + 1, pc := .stepCq }
      processed := by
  refine { hinv with cq_at := ?_ }
  simpa [hpc, HandlerPc.unstepped] using hinv.cq_at

theorem Reflector.InOrder.stepCq (hinv : state.InOrder logDepth processed)
    (hdepth : logDepth ≤ 15) (hpc : state.pc = .stepCq) :
    Reflector.InOrder logDepth
      { state with cqCtx := Dpa.stepCq state.cqCtx, pc := .processPacket } processed := by
  obtain ⟨consumed, hconsumed, hat⟩ := hinv.cq_at
  refine { hinv with cq_at := ⟨consumed + 1, ?_, hat.step (by omega)⟩ }
  simpa [hpc, HandlerPc.unstepped] using hconsumed

theorem ReflectorStep.inOrder {next : Reflector} {action : ReflectorAction}
    (hdepth : logDepth ≤ 15) (hstep : ReflectorStep logDepth state action next)
    (hallowed : NoOverrun logDepth state action) (hinv : state.InOrder logDepth processed) :
    ∃ processed', next.InOrder logDepth processed' := by
  cases hstep with
  | receive hvalid _ =>
      exact ⟨processed, hinv.receive hvalid hallowed⟩
  | transmit hrung hpacket =>
      exact ⟨processed, hinv.transmit hrung hpacket⟩
  | processPacket hpc hready =>
      exact ⟨processed + 1, hinv.processPacket hdepth hpc hready⟩
  | stepRq hpc =>
      exact ⟨processed, hinv.stepRq hpc⟩
  | stepCq hpc =>
      exact ⟨processed, hinv.stepCq hdepth hpc⟩

theorem reflectorSystem_inOrder (hdepth : logDepth ≤ 15)
    (hreach : ((reflectorSystem logDepth).restrict (NoOverrun logDepth)).Reachable state) :
    ∃ processed, state.InOrder logDepth processed := by
  apply hreach.invariant
  · intro state hstart
    obtain ⟨buffers, blank, sqRing, sqNumber, lkey, rfl⟩ := hstart
    exact ⟨0, Reflector.init_inOrder logDepth buffers blank sqRing sqNumber lkey⟩
  · intro state action next _ hinv hstep
    obtain ⟨processed, hinv⟩ := hinv
    exact ReflectorStep.inOrder hdepth hstep.2 hstep.1 hinv

/-- In every run in which no frame comes in on a buffer that still waits for its
transmission, the transmitted frames are the first received ones, swapped and in
order. -/
theorem transmitted_prefix_of_noOverrun (hdepth : logDepth ≤ 15)
    (hreach : ((reflectorSystem logDepth).restrict (NoOverrun logDepth)).Reachable state) :
    state.transmitted <+: state.received.map Frame.swapMacs := by
  obtain ⟨processed, hinv⟩ := reflectorSystem_inOrder hdepth hreach
  rw [hinv.transmitted_eq]
  exact List.take_prefix _ _

end Steps

/-! ## Filling the receive ring -/

section Fill

variable {logDepth : Nat} {frame : Frame}

/-- The NIC may fill the receive ring before the device looks at it. -/
theorem received_reachable {frames : List Frame} (hvalid : ∀ frame ∈ frames, frame.Valid)
    (hcount : frames.length ≤ 2 ^ logDepth) (hdepth : logDepth ≤ 15) :
    ∃ state, ((reflectorSystem logDepth).restrict (NoOverrun logDepth)).Reachable state ∧
      state.InOrder logDepth 0 ∧ state.received = frames ∧
      state.transmitted = [] ∧ state.pc = .processPacket ∧
      state.rqDbr = BitVec.ofNat 32 (2 ^ logDepth) := by
  induction frames using List.reverseRecOn with
  | nil =>
      exact ⟨_, .start ⟨fun _ _ => 0, ⟨0, 0⟩, fun _ => .blank, 0, 0, rfl⟩,
        Reflector.init_inOrder _ _ _ _ _ _, rfl, rfl, rfl, rfl⟩
  | append_singleton frames frame ih =>
      rw [List.length_append, List.length_singleton] at hcount
      obtain ⟨state, hreach, hinv, hreceived, htransmitted, hpc, hdbr⟩ :=
        ih (fun other hmem => hvalid other (List.mem_append_left _ hmem)) (by omega)
      have hframe : frame.Valid := hvalid frame (by simp)
      have hroom : state.received.length < state.transmitted.length + 2 ^ logDepth := by
        rw [hreceived]
        omega
      have hpow : 2 ^ logDepth ≤ 2 ^ 15 := Nat.pow_le_pow_right (by decide) hdepth
      have hposted : BitVec.ofNat 32 state.received.length ≠ state.rqDbr := by
        rw [hreceived, hdbr]
        intro heq
        have hnat := congrArg BitVec.toNat heq
        simp only [BitVec.toNat_ofNat] at hnat
        omega
      refine ⟨_, hreach.step_restrict (ReflectorStep.receive hframe hposted) hroom,
        hinv.receive hframe hroom, ?_, htransmitted, hpc, hdbr⟩
      change state.received ++ [frame] = _
      rw [hreceived]

/-- One call of `process_packet`, with the step of the receive queue that follows it. -/
theorem Reflector.InOrder.repost_reachable {state : Reflector} {processed : Nat}
    (hinv : state.InOrder logDepth processed) (hdepth : logDepth ≤ 15)
    (hpc : state.pc = .processPacket) (hlt : processed < state.received.length)
    (hreach : ((reflectorSystem logDepth).restrict (NoOverrun logDepth)).Reachable state) :
    ∃ next, ((reflectorSystem logDepth).restrict (NoOverrun logDepth)).Reachable next ∧
      next.InOrder logDepth (processed + 1) ∧ next.received = state.received ∧
      next.transmitted = state.transmitted ∧ next.pc = .stepCq ∧
      next.rqDbr = state.rqDbr + 1 := by
  have hready := hinv.ready hpc hlt
  have hprocessed := hreach.step_restrict (ReflectorStep.processPacket hpc hready) trivial
  exact ⟨_, hprocessed.step_restrict (ReflectorStep.stepRq rfl) trivial,
    (hinv.processPacket hdepth hpc hready).stepRq rfl, rfl, rfl, rfl, rfl⟩

/-- The device may process every frame that came in before the NIC sends one. -/
theorem processed_reachable {frames : List Frame} (hvalid : ∀ frame ∈ frames, frame.Valid)
    (hlength : frames.length ≤ 2 ^ logDepth) (hdepth : logDepth ≤ 15) {count : Nat}
    (hcount : count ≤ frames.length) :
    ∃ state, ((reflectorSystem logDepth).restrict (NoOverrun logDepth)).Reachable state ∧
      state.InOrder logDepth count ∧ state.received = frames ∧
      state.transmitted = [] ∧ state.pc = .processPacket := by
  induction count with
  | zero =>
      obtain ⟨state, hreach, hinv, hreceived, htransmitted, hpc, -⟩ :=
        received_reachable hvalid hlength hdepth
      exact ⟨state, hreach, hinv, hreceived, htransmitted, hpc⟩
  | succ count ih =>
      obtain ⟨state, hreach, hinv, hreceived, htransmitted, hpc⟩ := ih (by omega)
      obtain ⟨next, hreach', hinv', hreceived', htransmitted', hpc', -⟩ :=
        hinv.repost_reachable hdepth hpc (by rw [hreceived]; omega) hreach
      exact ⟨_, hreach'.step_restrict (ReflectorStep.stepCq hpc') trivial,
        hinv'.stepCq hdepth hpc', hreceived'.trans hreceived,
        htransmitted'.trans htransmitted, rfl⟩

/-- The NIC may then send all of them. -/
theorem reflected_reachable {frames : List Frame} (hvalid : ∀ frame ∈ frames, frame.Valid)
    (hlength : frames.length ≤ 2 ^ logDepth) (hdepth : logDepth ≤ 15) {count : Nat}
    (hcount : count ≤ frames.length) :
    ∃ state, ((reflectorSystem logDepth).restrict (NoOverrun logDepth)).Reachable state ∧
      state.InOrder logDepth frames.length ∧ state.received = frames ∧
      state.transmitted.length = count := by
  induction count with
  | zero =>
      obtain ⟨state, hreach, hinv, hreceived, htransmitted, -⟩ :=
        processed_reachable hvalid hlength hdepth le_rfl
      exact ⟨state, hreach, hinv, hreceived, by rw [htransmitted]; rfl⟩
  | succ count ih =>
      obtain ⟨state, hreach, hinv, hreceived, htransmitted⟩ := ih (by omega)
      have hpow : 2 ^ logDepth ≤ 2 ^ 15 := Nat.pow_le_pow_right (by decide) hdepth
      -- The doorbell is ahead of what was sent, as long as a processed frame is left.
      have hlt : state.transmitted.length < frames.length := by omega
      obtain ⟨_, address, byteCount, -, hpacket, -⟩ := hinv.next hlt
      have hrung : BitVec.ofNat 32 state.transmitted.length ≠ state.sqDb := by
        rw [hinv.sqDb]
        intro heq
        have hnat := congrArg BitVec.toNat heq
        simp only [BitVec.toNat_ofNat] at hnat
        omega
      exact ⟨_, hreach.step_restrict (ReflectorStep.transmit hrung hpacket) trivial,
        hinv.transmit hrung hpacket, hreceived, by simp [htransmitted]⟩

/-- One more frame takes the place of the first before the NIC has sent it. -/
theorem overrun_reachable {last : Frame} (hvalid : frame.Valid) (hlast : last.Valid)
    (hlength : last.length = frame.length) (hdepth : logDepth ≤ 15) :
    ∃ state, (reflectorSystem logDepth).Reachable state ∧
      state.received = List.replicate (2 ^ logDepth) frame ++ [last] ∧
      state.transmitted = [last] := by
  have hpos := Nat.two_pow_pos logDepth
  have hframes : ∀ other ∈ List.replicate (2 ^ logDepth) frame, other.Valid := by
    intro other hmem
    rw [List.eq_of_mem_replicate hmem]
    exact hvalid
  obtain ⟨filled, hfilled, hinv, hreceived, htransmitted, hpc, hdbr⟩ :=
    received_reachable hframes (by simp) hdepth
  obtain ⟨state, hreach, hinv, hreceived', htransmitted', -, hdbr'⟩ :=
    hinv.repost_reachable hdepth hpc (by simp [hreceived]) hfilled
  rw [hreceived] at hreceived'
  rw [htransmitted] at htransmitted'
  have hfull : state.received.length = 2 ^ logDepth := by simp [hreceived']
  have hposted : BitVec.ofNat 32 state.received.length ≠ state.rqDbr := by
    rw [hfull, hdbr', hdbr]
    simp
  -- The ring is full, and the frame goes to the buffer that was posted again.
  have hoverrun := hreach.of_restrict.step (ReflectorStep.receive hlast hposted)
  obtain ⟨frame', hframe', hpacket⟩ := hinv.packets 0 (by simp [htransmitted']) Nat.one_pos
  obtain rfl : frame = frame' := by
    simpa [hreceived', List.getElem?_replicate, hpos] using hframe'
  have hrung : BitVec.ofNat 32 (state.receive logDepth last).transmitted.length ≠
      (state.receive logDepth last).sqDb := by
    change BitVec.ofNat 32 state.transmitted.length ≠ state.sqDb
    rw [htransmitted', hinv.sqDb]
    decide
  have hentry : (state.receive logDepth last).sq.packet
      ((state.receive logDepth last).transmitted.length % 2 ^ logDepth) =
      some (0 % 2 ^ logDepth, BitVec.ofNat 32 frame.length) := by
    change state.sq.packet (state.transmitted.length % 2 ^ logDepth) = _
    rw [htransmitted']
    exact hpacket
  refine ⟨_, hoverrun.step (ReflectorStep.transmit hrung hentry), ?_, ?_⟩
  · change state.received ++ [last] = _
    rw [hreceived']
  · change state.transmitted ++ [readBytes (Function.update state.buffers
      (state.rqRing (state.received.length % 2 ^ logDepth)) _ _) _] = _
    rw [htransmitted', hfull, hinv.rqRing, Nat.mod_self, Nat.zero_mod, initDpaRqRing,
      Function.update_self, toNat_byteCnt hvalid, ← hlength, readBytes_writeBytes]
    rfl

end Fill

/-- A frame of a header only, with all bytes of an address alike. -/
def headerFrame (dst src : BitVec 8) : Frame :=
  List.replicate 6 dst ++ List.replicate 6 src ++ [0x08, 0x00]

theorem headerFrame_valid (dst src : BitVec 8) : (headerFrame dst src).Valid := by
  refine ⟨?_, ?_, ?_, ?_⟩ <;> simp [headerFrame, logWqDataEntryBsize]

/-- With the source's ring of 128 entries: three different frames that came in, were
processed and went out swapped. -/
theorem transmitted_prefix_threeHeaders :
    ∃ state, ((reflectorSystem 7).restrict (NoOverrun 7)).Reachable state ∧
      state.received = [headerFrame 1 2, headerFrame 3 4, headerFrame 5 6] ∧
      state.transmitted.length = 3 ∧
      state.transmitted <+: state.received.map Frame.swapMacs := by
  have hvalid : ∀ frame ∈ [headerFrame 1 2, headerFrame 3 4, headerFrame 5 6],
      frame.Valid := by
    simp [headerFrame_valid]
  obtain ⟨state, hreach, -, hreceived, htransmitted⟩ :=
    reflected_reachable hvalid (show 3 ≤ 2 ^ 7 by decide) (show 7 ≤ 15 by decide) le_rfl
  exact ⟨state, hreach, hreceived, htransmitted,
    transmitted_prefix_of_noOverrun (by decide) hreach⟩

/-- With the source's ring of 128 entries: the NIC receives 128 frames, the
device processes the first and posts its buffer again, and frame 129 comes in
there before the first was sent. What is then sent is frame 129, unswapped. -/
theorem frame_overwritten :
    ∃ state, (reflectorSystem 7).Reachable state ∧
      state.received = List.replicate 128 (headerFrame 1 2) ++ [headerFrame 3 4] ∧
      state.transmitted = [headerFrame 3 4] ∧
      ¬ state.transmitted <+: state.received.map Frame.swapMacs := by
  obtain ⟨state, hreach, hreceived, htransmitted⟩ :=
    overrun_reachable (headerFrame_valid 1 2) (headerFrame_valid 3 4) rfl (show 7 ≤ 15 by decide)
  refine ⟨state, hreach, hreceived, htransmitted, ?_⟩
  rw [hreceived, htransmitted]
  decide

end BenchBF3.Dpa
