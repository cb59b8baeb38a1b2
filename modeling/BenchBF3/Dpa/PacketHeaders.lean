import BenchBF3.Dpa.Steering

/-! # The headers of the sender's packets

The host's call `dpa_send_mt_deivce_first_packet` writes the headers of all packets
once; a thread that sends writes the addresses only. The handlers run already when the
call begins, and both take their buffers from one counter. If the handlers waited for
the call, every packet would have its header. As they do not, a handler can take every
other buffer from the call, which is then over with half of the headers missing.
-/

namespace BenchBF3.Dpa.SendMt

open Foundation

/-! ## Headers -/

/-- The header that `prepare_packet` gives the packets of a thread. -/
def MtConfig.header (config : MtConfig) (round : Nat) : Buffer :=
  applyStores (preparePacket ((config.threadIndex round).setWidth 64)) fun _ => 0

/-- The header of a packet, but for the two checksums. -/
def HasHeader (config : MtConfig) (round : Nat) (buffer : Buffer) : Prop :=
  ∀ position < hdrSize, position ∉ [24, 25, 40, 41] →
    buffer position = config.header round position

/-- The header behind the two addresses. -/
def HasIpHeader (config : MtConfig) (round : Nat) (buffer : Buffer) : Prop :=
  ∀ position, 12 ≤ position → position < hdrSize → position ∉ [24, 25, 40, 41] →
    buffer position = config.header round position

section HasHeader

variable {config : MtConfig} {round : Nat} {buffer : Buffer}

/-- The fields of `prepare_packet` are where those of the other senders are. -/
theorem headerFields_covered {threadIndex : BitVec 64} {position : Nat} (hlow : 12 ≤ position)
    (hhigh : position < hdrSize) (hfield : position ∉ [24, 25, 40, 41]) :
    Covered (headerFields threadIndex) position := by
  have hplaces : ((6, srcAddr) :: (0, dstAddr) :: headerFields threadIndex).map
      (fun field => (field.1, field.2.length)) =
      (Dpa.headerFields 0).map (fun field => (field.1, field.2.length)) := rfl
  obtain ⟨field, hmem, hinside⟩ :=
    (covered_congr hplaces).mpr (headerFields_covered_iff.mpr ⟨hhigh, hfield⟩)
  obtain rfl | rfl | hmem := List.mem_cons.mp hmem |>.imp_right List.mem_cons.mp
  · exact absurd (show position < 6 + 6 from hinside.2) (by omega)
  · exact absurd (show position < 0 + 6 from hinside.2) (by omega)
  · exact ⟨field, hmem, hinside⟩

/-- Behind the addresses `prepare_packet` makes the header whatever the buffer holds. -/
theorem preparePacket_congr {threadIndex : BitVec 64} (buffer other : Buffer) {position : Nat}
    (hlow : 12 ≤ position) (hhigh : position < hdrSize) (hfield : position ∉ [24, 25, 40, 41]) :
    applyStores (preparePacket threadIndex) buffer position =
      applyStores (preparePacket threadIndex) other position := by
  rw [preparePacket, applyStores_append, applyStores_append, applyStores_map_write,
    applyStores_map_write]
  exact writeFields_congr (Or.inr (headerFields_covered hlow hhigh hfield))

theorem HasIpHeader.congr (hheader : HasIpHeader config round buffer) {other : Buffer}
    (hsame : ∀ position, 12 ≤ position → position < hdrSize → other position = buffer position) :
    HasIpHeader config round other := by
  intro position hlow hhigh hfield
  rw [hsame position hlow hhigh]
  exact hheader position hlow hhigh hfield

/-- Both ways to prepare a packet give it its header. -/
theorem hasIpHeader_stores (stack : Buffer) :
    HasIpHeader config round (applyStores (config.stores round stack .call) buffer) := by
  intro position hlow hhigh hfield
  rw [MtConfig.stores]
  split
  · -- The host's variant copies the record from its stack, all header bytes included.
    have hcopied : applyStores (preparePacketHost stack ((config.threadIndex round).setWidth 64))
        buffer position =
        applyStores (preparePacket ((config.threadIndex round).setWidth 64)) stack position :=
      writeBytes_readBytes_apply buffer _ hhigh
    rw [hcopied]
    exact preparePacket_congr _ _ hlow hhigh hfield
  · exact preparePacket_congr _ _ hlow hhigh hfield

/-- The assignments of a handler are to the addresses. -/
theorem sendPacket_touches {threadIndex : BitVec 8} {position : Nat} (hlow : 12 ≤ position) :
    ∀ store ∈ sendPacket threadIndex, ¬store.Touches position := by
  intro store hstore htouches
  simp only [sendPacket, addressStores, List.mem_cons, List.not_mem_nil, or_false] at hstore
  obtain rfl | rfl | rfl := hstore
  · exact absurd (show position < 6 + 6 from htouches.2) (by omega)
  · exact absurd (show position = 11 from htouches) (by omega)
  · exact absurd (show position < 0 + 6 from htouches.2) (by omega)

theorem HasIpHeader.readBytes (hheader : HasIpHeader config round buffer) (other : Buffer) :
    HasIpHeader config round (writeBytes other (readBytes buffer pktSize)) := by
  refine hheader.congr fun position _ hhigh => writeBytes_readBytes_apply _ _ ?_
  unfold pktSize
  omega

theorem HasIpHeader.writeBytes {frame : Frame} {other : Buffer}
    (hheader : HasIpHeader config round (writeBytes buffer frame))
    (hlength : frame.length = pktSize) :
    HasIpHeader config round (Foundation.writeBytes other frame) := by
  refine hheader.congr fun position _ hhigh => writeBytes_congr _ _ ?_
  rw [hlength]
  unfold pktSize
  omega

theorem HasIpHeader.swapMacs {frame : Frame}
    (hheader : HasIpHeader config round (Foundation.writeBytes buffer frame))
    (hlength : 14 ≤ frame.length) :
    HasIpHeader config round (Foundation.writeBytes buffer frame.swapMacs) := by
  apply hheader.congr
  intro position hlow _
  rw [writeBytes_apply, writeBytes_apply, Frame.getElem?_swapMacs hlength, if_neg (by omega),
    if_neg (by omega)]

/-- With the right addresses in front the header is complete. -/
theorem HasIpHeader.hasHeader {frame : Frame}
    (hheader : HasIpHeader config round (Foundation.writeBytes buffer frame))
    (hsent : config.Sent round frame) :
    HasHeader config round (Foundation.writeBytes buffer frame) := by
  intro position hhigh hfield
  obtain hlow | hlow := Nat.lt_or_ge position 12
  · -- A sent packet has its addresses from the handler, and those are the header's.
    have hfront : frame.take 12 = Foundation.readBytes (config.header round) 12 := by
      calc frame.take (6 + 6) = frame.dst ++ frame.src := List.take_add
        _ = dstAddr ++ config.addr round := by rw [hsent.addressed.dst, hsent.addressed.src]
        _ = Foundation.readBytes (config.header round) 12 := rfl
    rw [writeBytes_apply, ← List.getElem?_take_of_lt hlow, hfront, getElem?_readBytes hlow]
    rfl
  · exact hheader position hlow hhigh hfield

end HasHeader

/-! ## Handlers that wait for the call -/

/-- How many packets of a thread the call has prepared. -/
def MtSender.preparedOf (state : MtSender) (round : Nat) : Nat :=
  min (2 ^ logRingDepth) (state.prepared - 2 ^ logRingDepth * round)

/-- Where the call is in its work on an entry of a thread. -/
def CallAt (config : MtConfig) (round entry : Nat) (thread : MtThread) : Progress → Prop
  | .idle => thread.txBuffIdx = BitVec.ofNat 32 entry
  | .loaded txBuffIdx => txBuffIdx = BitVec.ofNat 32 entry
  | .writing slot stores => slot = entry ∧ thread.txBuffIdx = BitVec.ofNat 32 (entry + 1) ∧
      HasIpHeader config round (applyStores stores (thread.slots slot))

/-- While the call runs nothing is sent, and what it has prepared stays. -/
structure Calling (config : MtConfig) (state : MtSender) : Prop where
  prepared : state.prepared < config.threadNum * 2 ^ logRingDepth
  handlers : ∀ round, state.progress (.handler round) = .idle
  posted : ∀ round, (state.thread round).posted = []
  outward : ∀ origin frame, (origin, frame) ∉ state.outward
  inward : ∀ origin frame, (some origin, frame) ∉ state.inward
  counter : ∀ round, state.round .call < round → (state.thread round).txBuffIdx = 0
  call : CallAt config (state.round .call) (state.prepared % 2 ^ logRingDepth)
    (state.thread (state.round .call)) (state.progress .call)
  buffers : ∀ round, ∀ slot < state.preparedOf round,
    HasIpHeader config round ((state.thread round).slots slot)

/-- After the call every buffer keeps its header, and so do the frames on the way. -/
structure Sending (config : MtConfig) (state : MtSender) : Prop where
  prepared : state.prepared = config.threadNum * 2 ^ logRingDepth
  stores : ∀ round slot stores, state.progress (.handler round) = .writing slot stores →
    ∀ store ∈ stores, ∀ position, 12 ≤ position → ¬store.Touches position
  buffers : ∀ round < config.threadNum, ∀ slot < 2 ^ logRingDepth,
    HasIpHeader config round ((state.thread round).slots slot)
  outward : ∀ origin frame, (origin, frame) ∈ state.outward →
    HasIpHeader config origin (writeBytes (fun _ => 0) frame)
  inward : ∀ origin frame, (some origin, frame) ∈ state.inward →
    HasIpHeader config origin (writeBytes (fun _ => 0) frame)

section Calling

variable {config : MtConfig} {state : MtSender}

theorem preparedOf_current :
    state.preparedOf (state.round .call) = state.prepared % 2 ^ logRingDepth := by
  rw [MtSender.preparedOf, MtSender.round, show 2 ^ logRingDepth = 128 from rfl]
  omega

theorem preparedOf_le (round : Nat) : state.preparedOf round ≤ 2 ^ logRingDepth :=
  Nat.min_le_left _ _

theorem Calling.init (slots : Nat → Nat → Buffer) (hthreads : 0 < config.threadNum) :
    Calling config (.init slots) where
  prepared := Nat.mul_pos hthreads (by decide)
  handlers _ := rfl
  posted _ := rfl
  outward _ _ := List.not_mem_nil
  inward _ _ := List.not_mem_nil
  counter _ _ := rfl
  call := rfl
  buffers round slot hslot := by
    change slot < min (2 ^ logRingDepth) (0 - _) at hslot
    rw [Nat.zero_sub, Nat.min_zero] at hslot
    exact absurd hslot (Nat.not_lt_zero slot)

/-- The call moves on within an entry: only the thread it is at matters. -/
theorem Calling.advance (hinv : Calling config state) {change : MtThread → MtThread}
    {progress : Progress}
    (hposted : ∀ thread, (change thread).posted = thread.posted)
    (hcall : CallAt config (state.round .call) (state.prepared % 2 ^ logRingDepth)
      (change (state.thread (state.round .call))) progress)
    (hbuffers : ∀ slot < state.prepared % 2 ^ logRingDepth,
      (change (state.thread (state.round .call))).slots slot =
        (state.thread (state.round .call)).slots slot) :
    Calling config (state.advance .call change progress) := by
  refine { hinv with
    handlers := fun round => ?_, posted := ?_, counter := ?_, call := ?_, buffers := ?_ }
  · have hne : Writer.handler round ≠ .call := nofun
    rw [MtSender.advance_progress_of_ne hne]
    exact hinv.handlers round
  · intro round
    by_cases heq : round = state.round .call
    · rw [MtSender.advance_thread_self heq.symm, hposted]
      exact hinv.posted round
    · rw [MtSender.advance_thread_of_ne heq]
      exact hinv.posted round
  · intro round hround
    rw [MtSender.advance_round] at hround
    rw [MtSender.advance_thread_of_ne hround.ne']
    exact hinv.counter round hround
  · rw [MtSender.advance_round, MtSender.advance_thread_self rfl, MtSender.advance_progress_self]
    exact hcall
  · intro round slot hslot
    have hbefore := hinv.buffers round slot hslot
    by_cases heq : round = state.round .call
    · change slot < state.preparedOf round at hslot
      rw [heq, preparedOf_current] at hslot
      rw [heq] at hbefore ⊢
      rw [MtSender.advance_thread_self rfl, hbuffers slot hslot]
      exact hbefore
    · rw [MtSender.advance_thread_of_ne heq]
      exact hbefore

/-- The counter leads the call to its next entry, which may be the first of a thread. -/
theorem Calling.counter_next (hinv : Calling config state)
    (hcounter : (state.thread (state.round .call)).txBuffIdx =
      BitVec.ofNat 32 (state.prepared % 2 ^ logRingDepth + 1)) :
    (state.thread ((state.prepared + 1) / 2 ^ logRingDepth)).txBuffIdx =
      BitVec.ofNat 32 ((state.prepared + 1) % 2 ^ logRingDepth) := by
  have hcounter' := hinv.counter
  rw [MtSender.round] at hcounter hcounter'
  rw [show 2 ^ logRingDepth = 128 from rfl] at *
  -- The counter of a thread that the call has not come to is still zero.
  by_cases hfirst : (state.prepared + 1) % 128 = 0
  · rw [hfirst]
    exact hcounter' _ (by omega)
  · rw [show (state.prepared + 1) / 128 = state.prepared / 128 by omega, hcounter,
      show (state.prepared + 1) % 128 = state.prepared % 128 + 1 by omega]

/-- The entry that the call was at has its header now. -/
theorem Calling.buffers_next (hinv : Calling config state)
    (hheader : HasIpHeader config (state.round .call)
      ((state.thread (state.round .call)).slots (state.prepared % 2 ^ logRingDepth))) :
    ∀ round, ∀ slot < min (2 ^ logRingDepth) (state.prepared + 1 - 2 ^ logRingDepth * round),
      HasIpHeader config round ((state.thread round).slots slot) := by
  intro round slot hslot
  by_cases hbefore : slot < state.preparedOf round
  · exact hinv.buffers round slot hbefore
  · -- One more packet counts as prepared, and that is the one of this entry.
    obtain ⟨rfl, rfl⟩ : round = state.round .call ∧ slot = state.prepared % 2 ^ logRingDepth := by
      rw [MtSender.preparedOf] at hbefore
      rw [MtSender.round]
      rw [show 2 ^ logRingDepth = 128 from rfl] at *
      omega
    exact hheader

/-- An entry is prepared; after the last one the call is over. -/
theorem Calling.next (hinv : Calling config state) {slot : Nat}
    (hwritten : state.progress .call = .writing slot []) :
    Calling config { state.advance .call id .idle with prepared := state.prepared + 1 } ∨
      Sending config { state.advance .call id .idle with prepared := state.prepared + 1 } := by
  have hcall := hinv.call
  rw [hwritten] at hcall
  obtain ⟨rfl, hcounter, hheader⟩ := hcall
  have hthread : (state.advance .call id .idle).thread = state.thread := MtSender.advance_id_thread
  have hhandlers : ∀ round, (state.advance .call id .idle).progress (.handler round) = .idle := by
    intro round
    have hne : Writer.handler round ≠ .call := nofun
    rw [MtSender.advance_progress_of_ne hne]
    exact hinv.handlers round
  have hbuffers := hinv.buffers_next hheader
  obtain hmore | hlast := Nat.lt_or_eq_of_le (Nat.succ_le_of_lt hinv.prepared)
  · left
    refine ⟨hmore, hhandlers, ?_, hinv.outward, hinv.inward, ?_, ?_, ?_⟩
    · intro round
      rw [hthread]
      exact hinv.posted round
    · intro round hround
      rw [hthread]
      exact hinv.counter round ((Nat.div_le_div_right (Nat.le_succ _)).trans_lt hround)
    · change CallAt config _ _ ((state.advance .call id .idle).thread _)
        ((state.advance .call id .idle).progress .call)
      rw [hthread, MtSender.advance_progress_self]
      exact hinv.counter_next hcounter
    · intro round slot hslot
      rw [hthread]
      exact hbuffers round slot hslot
  · -- The last entry: all buffers of all threads are prepared, and nothing is on its way.
    right
    refine ⟨hlast, ?_, ?_, ?_, ?_⟩
    · intro round slot stores hwriting
      exact nomatch (hhandlers round).symm.trans hwriting
    · intro round hround slot hslot
      rw [hthread]
      apply hbuffers round slot
      have hthreads : 2 ^ logRingDepth * (round + 1) ≤ 2 ^ logRingDepth * config.threadNum :=
        Nat.mul_le_mul_left _ hround
      rw [Nat.mul_succ, Nat.mul_comm _ config.threadNum] at hthreads
      omega
    · intro origin frame hframe
      exact absurd hframe (hinv.outward origin frame)
    · intro origin frame hframe
      exact absurd hframe (hinv.inward origin frame)

theorem CallAt.congr {round entry : Nat} {thread other : MtThread} {progress : Progress}
    (hcall : CallAt config round entry thread progress)
    (hcounter : other.txBuffIdx = thread.txBuffIdx)
    (hslot : other.slots entry = thread.slots entry) :
    CallAt config round entry other progress := by
  cases progress with
  | idle => exact hcounter.trans hcall
  | loaded txBuffIdx => exact hcall
  | writing slot stores =>
      obtain ⟨rfl, hcount, hheader⟩ := hcall
      refine ⟨rfl, hcounter.trans hcount, ?_⟩
      rw [hslot]
      exact hheader

/-- Nothing that is received gets into a buffer of the call. -/
theorem Calling.slots_receive (hinv : Calling config state) (hsteered : Steered config state)
    {origin : Option Nat} {frame : Frame} {queue : Nat} (hinward : (origin, frame) ∈ state.inward)
    (hqueue : queue < config.threadNum) (hrule : (config.rule queue).Selects frame.dst)
    {slot : Nat} (hslot : slot < 2 ^ logRingDepth) :
    ((state.thread queue).receive (config.rxSlot (state.thread queue).received) frame).slots slot =
      (state.thread queue).slots slot := by
  apply MtThread.receive_slots_of_ne
  rintro rfl
  -- Into a send buffer only an answer could come, and no packet has been sent.
  have hshared := MtConfig.shared_of_rxSlot_lt hslot
  obtain rfl := hsteered.origin_eq hinward hshared hqueue hrule
  exact hinv.inward queue frame hinward

theorem Calling.take (hinv : Calling config state) {txBuffIdx : BitVec 32} (stack : Buffer)
    (hloaded : state.progress .call = .loaded txBuffIdx) :
    Calling config (state.advance .call (·.setTxBuffIdx (txBuffIdx + 1))
      (.writing (slotOf txBuffIdx) (config.stores (state.round .call) stack .call))) := by
  have hcall := hinv.call
  rw [hloaded] at hcall
  obtain rfl : txBuffIdx = _ := hcall
  refine hinv.advance (fun _ => rfl) ⟨?_, ?_, hasIpHeader_stores stack⟩ fun _ _ => rfl
  · rw [slotOf_ofNat, Nat.mod_eq_of_lt (Nat.mod_lt _ (by decide))]
  · exact (BitVec.ofNat_add _ _).symm

theorem Calling.store (hinv : Calling config state) {slot : Nat} {first : Store}
    {stores : List Store} (hwriting : state.progress .call = .writing slot (first :: stores)) :
    Calling config (state.advance .call (·.write slot [first]) (.writing slot stores)) := by
  have hcall := hinv.call
  rw [hwriting] at hcall
  obtain ⟨rfl, hcounter, hheader⟩ := hcall
  refine hinv.advance (fun _ => rfl) ⟨rfl, hcounter, ?_⟩ ?_
  · rw [MtThread.slots_write, if_pos rfl]
    exact hheader
  · intro slot hslot
    rw [MtThread.slots_write, if_neg hslot.ne]

theorem Calling.receive (hinv : Calling config state) (hsteered : Steered config state)
    {origin : Option Nat} {frame : Frame} {queue : Nat} (hinward : (origin, frame) ∈ state.inward)
    (hqueue : queue < config.threadNum) (hrule : (config.rule queue).Selects frame.dst) :
    Calling config (state.setThread queue ((state.thread queue).receive
      (config.rxSlot (state.thread queue).received) frame)) := by
  have hslots := fun slot (hslot : slot < 2 ^ logRingDepth) =>
    hinv.slots_receive hsteered hinward hqueue hrule hslot
  generalize hreceived : (state.thread queue).receive
    (config.rxSlot (state.thread queue).received) frame = received at hslots ⊢
  -- Of all that the call looks at, receiving changes nothing.
  have hsame : ∀ round, ((state.setThread queue received).thread round).posted =
      (state.thread round).posted ∧ ((state.setThread queue received).thread round).txBuffIdx =
      (state.thread round).txBuffIdx ∧ ∀ slot < 2 ^ logRingDepth,
      ((state.setThread queue received).thread round).slots slot =
        (state.thread round).slots slot := by
    intro round
    by_cases heq : round = queue
    · subst heq
      rw [MtSender.setThread_self]
      refine ⟨?_, ?_, hslots⟩
      · rw [← hreceived]
        rfl
      · rw [← hreceived]
        rfl
    · rw [MtSender.setThread_of_ne heq]
      exact ⟨rfl, rfl, fun _ _ => rfl⟩
  refine { hinv with posted := ?_, counter := ?_, call := ?_, buffers := ?_ }
  · exact fun round => (hsame round).1.trans (hinv.posted round)
  · exact fun round hround => (hsame round).2.1.trans (hinv.counter round hround)
  · exact hinv.call.congr (hsame _).2.1 ((hsame _).2.2 _ (Nat.mod_lt _ (by decide)))
  · intro round slot hslot
    rw [(hsame round).2.2 slot (hslot.trans_le (preparedOf_le round))]
    exact hinv.buffers round slot hslot

theorem Calling.step (hinv : Calling config state) (hsteered : Steered config state)
    {action : MtAction} {next : MtSender} (hstep : MtStep config state action next)
    (hwaits : Waits config state action) : Calling config next ∨ Sending config next := by
  cases hstep with
  | @load writer hactive hidle =>
      cases writer with
      | handler round =>
          -- This is where the handlers wait.
          exact absurd hwaits hinv.prepared.ne
      | call =>
          have hcall := hinv.call
          rw [hidle] at hcall
          exact Or.inl (hinv.advance (fun _ => rfl) hcall fun _ _ => rfl)
  | @take writer txBuffIdx stack hactive hloaded =>
      cases writer with
      | handler round => exact nomatch (hinv.handlers round).symm.trans hloaded
      | call => exact Or.inl (hinv.take stack hloaded)
  | @store writer slot first stores hactive hwriting =>
      cases writer with
      | handler round => exact nomatch (hinv.handlers round).symm.trans hwriting
      | call => exact Or.inl (hinv.store hwriting)
  | @post round slot hround hwritten => exact nomatch (hinv.handlers round).symm.trans hwritten
  | next hprepared hwritten => exact hinv.next hwritten
  | @transmit round slot sender rest hround hposted hsender hrule =>
      exact nomatch (hinv.posted round).symm.trans hposted
  | @block round slot rest hround hposted hrule =>
      exact nomatch (hinv.posted round).symm.trans hposted
  | reflect houtward hdst => exact absurd houtward (hinv.outward _ _)
  | arrive frame =>
      refine Or.inl { hinv with inward := ?_ }
      intro origin reply hreply
      obtain hreply | ⟨⟨⟩, -⟩ := mem_concat.mp hreply
      exact hinv.inward origin reply hreply
  | receive hinward hqueue hrule hroom =>
      exact Or.inl { hinv.receive hsteered hinward hqueue hrule with
        inward := fun other _ hother => hinv.inward other _ (List.mem_of_mem_erase hother) }
  | loseOutward houtward => exact absurd houtward (hinv.outward _ _)
  | loseInward hinward =>
      exact Or.inl { hinv with
        inward := fun other _ hother => hinv.inward other _ (List.mem_of_mem_erase hother) }

end Calling

section Sending

variable {config : MtConfig} {state : MtSender}

/-- A handler moves without a change behind the addresses. -/
theorem Sending.advance (hinv : Sending config state) {round : Nat}
    {change : MtThread → MtThread} {progress : Progress}
    (hstores : ∀ slot stores, progress = .writing slot stores →
      ∀ store ∈ stores, ∀ position, 12 ≤ position → ¬store.Touches position)
    (hslots : ∀ slot position, 12 ≤ position → (change (state.thread round)).slots slot position =
      (state.thread round).slots slot position) :
    Sending config (state.advance (.handler round) change progress) := by
  refine { hinv with stores := ?_, buffers := ?_ }
  · intro other slot stores hwriting
    by_cases heq : other = round
    · rw [heq, MtSender.advance_progress_self] at hwriting
      exact hstores slot stores hwriting
    · have hne : Writer.handler other ≠ .handler round := fun hsame =>
        heq (Writer.handler.inj hsame)
      rw [MtSender.advance_progress_of_ne hne] at hwriting
      exact hinv.stores other slot stores hwriting
  · intro other hother slot hslot
    have hbefore := hinv.buffers other hother slot hslot
    by_cases heq : other = round
    · subst other
      rw [MtSender.advance_handler_thread]
      exact hbefore.congr fun position hlow _ => hslots slot position hlow
    · rw [MtSender.advance_thread_of_ne heq]
      exact hbefore

theorem Sending.setThread (hinv : Sending config state) {round : Nat} {thread : MtThread}
    (hthread : round < config.threadNum → ∀ slot < 2 ^ logRingDepth,
      HasIpHeader config round (thread.slots slot)) :
    Sending config (state.setThread round thread) := by
  refine { hinv with buffers := ?_ }
  intro other hother slot hslot
  by_cases heq : other = round
  · subst other
    rw [MtSender.setThread_self]
    exact hthread hother slot hslot
  · rw [MtSender.setThread_of_ne heq]
    exact hinv.buffers other hother slot hslot

/-- An answer that is received takes its header into the buffer. -/
theorem Sending.receive (hinv : Sending config state) (hsteered : Steered config state)
    {origin : Option Nat} {frame : Frame} {queue : Nat} (hinward : (origin, frame) ∈ state.inward)
    (hqueue : queue < config.threadNum) (hrule : (config.rule queue).Selects frame.dst) :
    Sending config (state.setThread queue ((state.thread queue).receive
      (config.rxSlot (state.thread queue).received) frame)) := by
  refine hinv.setThread ?_
  intro _ slot hslot
  by_cases hsame : slot = config.rxSlot (state.thread queue).received
  · have hshared : config.txSharedRxBuffer = true := MtConfig.shared_of_rxSlot_lt (hsame ▸ hslot)
    obtain rfl := hsteered.origin_eq hinward hshared hqueue hrule
    rw [hsame, MtThread.receive_slots_self]
    exact (hinv.inward queue frame hinward).writeBytes (hsteered.inward queue frame hinward).length
  · rw [MtThread.receive_slots_of_ne hsame]
    exact hinv.buffers queue hqueue slot hslot

/-- A handler assigns to the addresses only. -/
theorem Sending.store (hinv : Sending config state) {round slot : Nat} {first : Store}
    {stores : List Store}
    (hwriting : state.progress (.handler round) = .writing slot (first :: stores)) :
    Sending config
      (state.advance (.handler round) (·.write slot [first]) (.writing slot stores)) := by
  have hleft := hinv.stores round slot _ hwriting
  refine hinv.advance ?_ ?_
  · rintro _ _ ⟨⟩ store hstore
    exact hleft store (List.mem_cons_of_mem _ hstore)
  · intro other position hlow
    rw [MtThread.slots_write]
    split
    case isTrue heq =>
      rw [heq]
      exact Store.apply_of_not_touches (hleft first List.mem_cons_self position hlow) _
    case isFalse => rfl

theorem Sending.transmit (hinv : Sending config state) (hsteered : Steered config state)
    {round slot : Nat} {rest : List Nat} (hround : round < config.threadNum)
    (hposted : (state.thread round).posted = slot :: rest) :
    Sending config
      { state.setThread round { state.thread round with posted := rest } with
        outward := state.outward ++
          [(round, readBytes ((state.thread round).slots slot) pktSize)] } := by
  have hslot : slot ∈ (state.thread round).posted := by
    rw [hposted]
    exact List.mem_cons_self
  have hheader := hinv.buffers round hround slot (hsteered.ready round slot hslot).1
  have hpopped : Sending config
      (state.setThread round { state.thread round with posted := rest }) :=
    hinv.setThread fun hlt => hinv.buffers round hlt
  refine { hpopped with outward := ?_ }
  intro origin frame hframe
  obtain hframe | ⟨rfl, rfl⟩ := mem_concat.mp hframe
  · exact hinv.outward origin frame hframe
  · exact hheader.readBytes _

/-- The peer swaps the addresses and leaves the rest. -/
theorem Sending.reflect (hinv : Sending config state) (hsteered : Steered config state)
    {origin : Nat} {frame : Frame} (houtward : (origin, frame) ∈ state.outward) :
    Sending config
      { state with
        outward := state.outward.erase (origin, frame)
        inward := state.inward ++ [(some origin, frame.swapMacs)] } := by
  have hlength : 14 ≤ frame.length := by
    rw [(hsteered.outward origin frame houtward).length]
    decide
  refine { hinv with
    outward := fun other _ hother => hinv.outward other _ (List.mem_of_mem_erase hother)
    inward := ?_ }
  intro other reply hreply
  obtain hreply | ⟨⟨⟩, rfl⟩ := mem_concat.mp hreply
  · exact hinv.inward other reply hreply
  · exact (hinv.outward origin frame houtward).swapMacs hlength

theorem Sending.step (hinv : Sending config state) (hsteered : Steered config state)
    {action : MtAction} {next : MtSender} (hstep : MtStep config state action next) :
    Sending config next := by
  have hover : ¬state.Active config .call := hinv.prepared.not_lt
  cases hstep with
  | @load writer hactive hidle =>
      cases writer with
      | handler round => exact hinv.advance nofun fun _ _ _ => rfl
      | call => exact absurd hactive hover
  | @take writer txBuffIdx stack hactive hloaded =>
      cases writer with
      | handler round =>
          refine hinv.advance ?_ fun _ _ _ => rfl
          rintro _ _ ⟨⟩ store hstore position hlow
          exact sendPacket_touches hlow store hstore
      | call => exact absurd hactive hover
  | @store writer slot first stores hactive hwriting =>
      cases writer with
      | handler round => exact hinv.store hwriting
      | call => exact absurd hactive hover
  | post hround hwritten => exact hinv.advance nofun fun _ _ _ => rfl
  | next hprepared hwritten => exact absurd hprepared hover
  | transmit hround hposted hsender hrule => exact hinv.transmit hsteered hround hposted
  | @block round slot rest hround hposted hrule =>
      exact hinv.setThread fun hlt => hinv.buffers round hlt
  | reflect houtward hdst => exact hinv.reflect hsteered houtward
  | arrive frame =>
      refine { hinv with inward := ?_ }
      intro origin reply hreply
      obtain hreply | ⟨⟨⟩, -⟩ := mem_concat.mp hreply
      exact hinv.inward origin reply hreply
  | receive hinward hqueue hrule hroom =>
      exact { hinv.receive hsteered hinward hqueue hrule with
        inward := fun other _ hother => hinv.inward other _ (List.mem_of_mem_erase hother) }
  | loseOutward houtward =>
      exact { hinv with
        outward := fun other _ hother => hinv.outward other _ (List.mem_of_mem_erase hother) }
  | loseInward hinward =>
      exact { hinv with
        inward := fun other _ hother => hinv.inward other _ (List.mem_of_mem_erase hother) }

/-- The orderly runs in which the handlers wait. -/
def Patient (config : MtConfig) (state : MtSender) (action : MtAction) : Prop :=
  Orderly config state action ∧ Waits config state action

theorem Patient.steered (hreach : ((mtSystem config).restrict (Patient config)).Reachable state) :
    Steered config state :=
  mtSystem_steered (hreach.mono_restrict fun _ _ hpatient => hpatient.1)

theorem mtSystem_phase (hreach : ((mtSystem config).restrict (Patient config)).Reachable state) :
    Calling config state ∨ Sending config state := by
  refine @System.Reachable.invariant _ _ _
    (fun state => Calling config state ∨ Sending config state) ?_ ?_ state hreach
  · rintro state ⟨slots, rfl⟩
    -- Without threads the call is over before it begins.
    obtain hnone | hthreads := Nat.eq_zero_or_pos config.threadNum
    · right
      refine ⟨?_, fun _ _ _ => nofun, ?_, fun _ _ => nofun, fun _ _ => nofun⟩
      · rw [hnone, Nat.zero_mul]
        rfl
      · intro round hround
        omega
    · exact Or.inl (.init slots hthreads)
  · rintro state action next hprior (hcalling | hsending) ⟨⟨-, hwaits⟩, hstep⟩
    · exact hcalling.step (Patient.steered hprior) hstep hwaits
    · exact Or.inr (hsending.step (Patient.steered hprior) hstep)

/-- If the handlers wait for the call, every packet on its way to the peer has its whole
header, and every buffer that the NIC has to send from has it behind the addresses. -/
theorem packets_complete
    (hreach : ((mtSystem config).restrict (Patient config)).Reachable state) :
    (∀ origin frame, (origin, frame) ∈ state.outward →
      HasHeader config origin (writeBytes (fun _ => 0) frame)) ∧
    ∀ round < config.threadNum, ∀ slot ∈ (state.thread round).posted,
      HasIpHeader config round ((state.thread round).slots slot) := by
  have hsteered := Patient.steered hreach
  obtain hcalling | hsending := mtSystem_phase hreach
  · refine ⟨fun origin frame hframe => absurd hframe (hcalling.outward origin frame), ?_⟩
    intro round _ slot hslot
    rw [hcalling.posted round] at hslot
    exact absurd hslot List.not_mem_nil
  · refine ⟨fun origin frame hframe => ?_, fun round hround slot hslot => ?_⟩
    · exact (hsending.outward origin frame hframe).hasHeader (hsteered.outward origin frame hframe)
    · exact hsending.buffers round hround slot (hsteered.ready round slot hslot).1

/-- The call comes to its end if no handler sends. -/
theorem exists_prepared {count : Nat} (hcount : count ≤ config.threadNum * 2 ^ logRingDepth) :
    ∃ state, ((mtSystem config).restrict (Patient config)).Reachable state ∧
      state.prepared = count ∧ (∀ writer, state.progress writer = .idle) ∧
      ∀ round, (state.thread round).posted = [] := by
  induction count with
  | zero => exact ⟨.init fun _ _ _ => 0, .start ⟨_, rfl⟩, rfl, fun _ => rfl, fun _ => rfl⟩
  | succ count ih =>
      obtain ⟨state, hreach, hprepared, hidle, hposted⟩ := ih (by omega)
      have hfree := @exclusive_take state .call (by rw [hposted]; exact List.not_mem_nil)
        fun other _ _ => hidle other
      have hnext := prepare_reachable hreach ⟨⟨trivial, trivial⟩, trivial⟩
        ⟨⟨trivial, hfree⟩, trivial⟩ (fun _ => ⟨⟨trivial, trivial⟩, trivial⟩)
        (fun _ => ⟨⟨trivial, trivial⟩, trivial⟩) (by omega) (hidle .call) (fun _ => 0)
      refine ⟨_, hnext, congrArg (· + 1) hprepared, MtSender.prepareNext_idle hidle _, ?_⟩
      intro round
      rw [MtSender.prepareNext]
      by_cases heq : round = state.round .call
      · rw [MtSender.advance_thread_self heq.symm]
        exact hposted round
      · rw [MtSender.advance_thread_of_ne heq]
        exact hposted round

/-- The second thread has sent a packet. -/
theorem packets_complete_second :
    ∃ state, ((mtSystem twoSenders).restrict (Patient twoSenders)).Reachable state ∧
      ∃ frame, (1, frame) ∈ state.outward ∧
        HasHeader twoSenders 1 (writeBytes (fun _ => 0) frame) := by
  -- The call prepares all packets, and then the second thread sends one.
  obtain ⟨state, hreach, hdone, hidle, hposted⟩ := @exists_prepared twoSenders _ (le_refl _)
  have hfree := @exclusive_take state (.handler 1) (by rw [hposted]; exact List.not_mem_nil)
    fun other _ _ => hidle other
  have hsent := @send_reachable twoSenders _ state 1 hreach ⟨⟨trivial, trivial⟩, hdone⟩
    ⟨⟨trivial, hfree⟩, trivial⟩ (fun _ => ⟨⟨trivial, trivial⟩, trivial⟩)
    (fun _ => ⟨⟨trivial, trivial⟩, trivial⟩) (by decide) (hidle _)
  have hentry : ((state.advance (.handler 1)
      (·.sendNext ((twoSenders.threadIndex 1).setWidth 8)) .idle).thread 1).posted =
      [slotOf (state.thread 1).txBuffIdx] := by
    rw [MtSender.advance_handler_thread]
    exact congrArg (· ++ [_]) (hposted 1)
  have hrule : (twoSenders.rule 1).Selects (Frame.src (readBytes (((state.advance (.handler 1)
      (·.sendNext ((twoSenders.threadIndex 1).setWidth 8)) .idle).thread 1).slots
        (slotOf (state.thread 1).txBuffIdx)) pktSize)) := by
    rw [MtConfig.rule_selects_iff (by decide), MtSender.advance_handler_thread, MtThread.sendNext,
      MtThread.post, MtThread.writeNext, MtThread.slots_write, if_pos rfl]
    rfl
  have hout := hsent.step_restrict (MtStep.transmit (by decide) hentry (by decide) hrule)
    ⟨⟨trivial, trivial⟩, trivial⟩
  exact ⟨_, hout, _, List.mem_append_right _ List.mem_cons_self,
    (packets_complete hout).1 1 _ (List.mem_append_right _ List.mem_cons_self)⟩

end Sending

/-! ## Handlers that do not wait -/

/-- The handler and the call have taken the buffers of the first thread in turn, the
handler first: the even ones are as they were but for the addresses. -/
structure Raced (slots : Nat → Buffer) (taken prepared : Nat) (state : MtSender) : Prop where
  idle : ∀ writer, state.progress writer = .idle
  prepared : state.prepared = prepared
  counter : (state.thread 0).txBuffIdx = BitVec.ofNat 32 taken
  posted : 0 < taken → 0 ∈ (state.thread 0).posted
  even : ∀ slot position, slot % 2 = 0 → 12 ≤ position →
    (state.thread 0).slots slot position = slots slot position

section Race

variable {config : MtConfig} {slots : Nat → Buffer} {taken prepared : Nat} {state : MtSender}

theorem Raced.send (hraced : Raced slots taken prepared state) (threadIndex : BitVec 8) :
    Raced slots (taken + 1) prepared
      (state.advance (.handler 0) (·.sendNext threadIndex) .idle) := by
  refine ⟨MtSender.advance_idle hraced.idle, hraced.prepared, ?_, ?_, ?_⟩
  · rw [MtSender.advance_handler_thread, BitVec.ofNat_add, ← hraced.counter]
    rfl
  · intro _
    rw [MtSender.advance_handler_thread]
    obtain rfl | hpos := Nat.eq_zero_or_pos taken
    · refine List.mem_append_right _ (List.mem_singleton.mpr ?_)
      rw [hraced.counter, slotOf_ofNat]
      rfl
    · exact List.mem_append_left _ (hraced.posted hpos)
  · -- The handler's packet keeps what the buffer held behind the addresses.
    intro slot position heven hlow
    rw [MtSender.advance_handler_thread, MtThread.sendNext, MtThread.post, MtThread.writeNext,
      MtThread.slots_write]
    have hbefore := hraced.even slot position heven hlow
    split
    case isTrue heq =>
      rw [← heq]
      exact (applyStores_of_not_touched (sendPacket_touches hlow) _).trans hbefore
    case isFalse => exact hbefore

theorem Raced.prepare (hraced : Raced slots taken prepared state) (hodd : taken % 2 = 1)
    (hprepared : prepared < 2 ^ logRingDepth) (stack : Buffer) :
    Raced slots (taken + 1) (prepared + 1) (state.prepareNext config stack) := by
  have hround : state.round .call = 0 := by
    rw [MtSender.round, hraced.prepared]
    exact Nat.div_eq_of_lt hprepared
  have hthread : (state.prepareNext config stack).thread 0 =
      (state.thread 0).writeNext (config.stores (state.round .call) stack .call) :=
    @MtSender.advance_thread_self state .call .idle 0 _ hround
  refine ⟨MtSender.prepareNext_idle hraced.idle _, congrArg (· + 1) hraced.prepared, ?_, ?_, ?_⟩
  · rw [hthread, BitVec.ofNat_add, ← hraced.counter]
    rfl
  · intro _
    rw [hthread]
    exact hraced.posted (by omega)
  · -- The call is at an odd entry, so no even buffer gets its header.
    intro slot position heven hlow
    have hne : slot ≠ taken % 2 ^ logRingDepth := by
      rw [show 2 ^ logRingDepth = 128 from rfl]
      omega
    rw [hthread, MtThread.writeNext, MtThread.slots_write, hraced.counter, slotOf_ofNat,
      if_neg hne]
    exact hraced.even slot position heven hlow

/-- The two take turns for as long as the call is at the first thread. -/
theorem exists_raced (hthread : 0 < config.threadNum) (slots : Nat → Nat → Buffer) {count : Nat}
    (hcount : count ≤ 2 ^ logRingDepth) :
    ∃ state, ((mtSystem config).restrict (Undisturbed config)).Reachable state ∧
      Raced (slots 0) (2 * count) count state := by
  induction count with
  | zero =>
      refine ⟨.init slots, .start ⟨slots, rfl⟩, fun _ => rfl, rfl, rfl, ?_, fun _ _ _ _ => rfl⟩
      intro hpos
      exact absurd hpos (Nat.lt_irrefl 0)
  | succ count ih =>
      obtain ⟨state, hreach, hraced⟩ := ih (by omega)
      have hroom : state.prepared < config.threadNum * 2 ^ logRingDepth := by
        rw [hraced.prepared]
        exact Nat.lt_of_lt_of_le hcount (Nat.le_mul_of_pos_left _ hthread)
      have hreachSent := send_reachable hreach trivial trivial (fun _ => trivial)
        (fun _ => trivial) hthread (hraced.idle _)
      have hsent := hraced.send ((config.threadIndex 0).setWidth 8)
      have hreachNext := prepare_reachable hreachSent trivial trivial (fun _ => trivial)
        (fun _ => trivial) hroom (hsent.idle _) (fun _ => 0)
      exact ⟨_, hreachNext, hsent.prepare (by omega) hcount _⟩

/-- The handlers do not wait. The call can be over with the first thread when half of
its packets have no header: what they hold behind the addresses is what was in the
buffers before, and the NIC has them to send. -/
theorem headers_missing (hthread : 0 < config.threadNum) (slots : Nat → Nat → Buffer) :
    ∃ state, ((mtSystem config).restrict (Undisturbed config)).Reachable state ∧
      state.prepared = 2 ^ logRingDepth ∧ 0 ∈ (state.thread 0).posted ∧
      ∀ slot position, slot % 2 = 0 → 12 ≤ position →
        (state.thread 0).slots slot position = slots 0 slot position := by
  obtain ⟨state, hreach, hraced⟩ := exists_raced hthread slots (le_refl _)
  exact ⟨state, hreach, hraced.prepared, hraced.posted (by decide), hraced.even⟩

/-- In blank buffers not even the type of the frame is right. -/
theorem headers_missing_blank :
    ∃ state, ((mtSystem twoSenders).restrict (Undisturbed twoSenders)).Reachable state ∧
      state.prepared = 2 ^ logRingDepth ∧ 0 ∈ (state.thread 0).posted ∧
      ¬HasIpHeader twoSenders 0 ((state.thread 0).slots 0) := by
  obtain ⟨state, hreach, hprepared, hposted, hblank⟩ :=
    @headers_missing twoSenders (by decide) fun _ _ _ => 0
  refine ⟨state, hreach, hprepared, hposted, ?_⟩
  intro hheader
  have hbyte := hheader 12 (by decide) (by decide) (by decide)
  rw [hblank 0 12 rfl (by decide)] at hbyte
  exact absurd hbyte (by decide)

end Race

end BenchBF3.Dpa.SendMt
