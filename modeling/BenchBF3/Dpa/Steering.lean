import BenchBF3.Dpa.SendThreads

/-! # Steering by MAC address

The peer answers a packet to the address it came from. In the runs in which no buffer
is taken while it is in use and, where the queues share their buffers, nobody else uses
the addresses, every answer comes back to the queue of the thread whose packet it
answers. The source sees to neither. A handler that is a lap ahead of the NIC, or one
frame from elsewhere at the wrong moment, sends an answer to another thread.
-/

namespace BenchBF3.Dpa.SendMt

open Foundation

/-! ## What the buffers and the frames hold -/

/-- The addresses of a frame. -/
structure Addressed (src dst : List (BitVec 8)) (frame : Frame) : Prop where
  src : frame.src = src
  dst : frame.dst = dst

theorem addressed_readBytes {src dst : List (BitVec 8)} {buffer : Buffer} {length : Nat}
    (hlength : 12 ≤ length) (hdst : dst.length = 6) (hheader : readBytes buffer 12 = dst ++ src) :
    Addressed src dst (readBytes buffer length) := by
  rw [← take_readBytes hlength] at hheader
  constructor
  · have hdrop := congrArg (List.drop 6) hheader
    rw [List.drop_take, List.drop_left' hdst] at hdrop
    exact hdrop
  · have htake := congrArg (List.take 6) hheader
    rw [List.take_take, List.take_left' hdst] at htake
    exact htake

theorem Addressed.swapMacs {src dst : List (BitVec 8)} {frame : Frame}
    (haddressed : Addressed src dst frame) (hheader : 14 ≤ frame.length) :
    Addressed dst src frame.swapMacs := by
  refine ⟨?_, (Frame.dst_swapMacs hheader).trans haddressed.src⟩
  have hsource : ((frame.drop 6).take 6).length = 6 := by
    simp only [List.length_take, List.length_drop]
    omega
  have htarget : (frame.take 6).length = 6 := by
    rw [List.length_take]
    omega
  rw [Frame.src, Frame.swapMacs, List.append_assoc, List.drop_left' hsource,
    List.take_left' htarget]
  exact haddressed.dst

/-- The source address begins like the peer's, as no thread's address does. -/
def FromPeer (buffer : Buffer) : Prop := buffer 6 = 0xA0

theorem FromPeer.not_selects {config : MtConfig} {buffer : Buffer} (hpeer : FromPeer buffer)
    {sender : Nat} (hsender : sender < config.threadNum) :
    ¬(config.rule sender).Selects (Frame.src (readBytes buffer pktSize)) := by
  rw [MtConfig.rule_selects_iff hsender, Frame.src_readBytes (by decide)]
  intro heq
  have hfirst : some (buffer 6) = some 0x02 := congrArg List.head? heq
  rw [hpeer] at hfirst
  exact absurd hfirst (by decide)

namespace MtConfig

variable (config : MtConfig)

/-- A packet of a thread, on its way to the peer. -/
structure Sent (origin : Nat) (frame : Frame) : Prop where
  origin_lt : origin < config.threadNum
  addressed : Addressed (config.addr origin) dstAddr frame
  length : frame.length = pktSize

/-- The answer to a packet of a thread. -/
structure Answer (origin : Nat) (frame : Frame) : Prop where
  origin_lt : origin < config.threadNum
  addressed : Addressed dstAddr (config.addr origin) frame
  length : frame.length = pktSize

/-- A buffer with a packet of the thread or, where received frames get there, with
something that no rule lets out. -/
def Holds (round : Nat) (buffer : Buffer) : Prop :=
  Addressed (config.addr round) dstAddr (readBytes buffer pktSize) ∨
    config.txSharedRxBuffer = true ∧ FromPeer buffer

/-- Assignments that make a packet of whatever the buffer holds; after the first one the
first byte of the source address stays. -/
structure Makes (round : Nat) (stores : List Store) : Prop where
  addressed : ∀ buffer,
    Addressed (config.addr round) dstAddr (readBytes (applyStores stores buffer) pktSize)
  rest : ∀ store ∈ stores.tail, ¬store.Touches 6

/-- The assignments that are left turn the buffer into one that can be posted, even if a
frame from the peer is received into it on the way. -/
def Completes (round : Nat) (stores : List Store) (buffer : Buffer) : Prop :=
  config.Makes round stores ∨
    (∀ store ∈ stores, ¬store.Touches 6) ∧ config.Holds round (applyStores stores buffer)

/-- What the NIC has to send can be sent. -/
def Ready (round : Nat) (thread : MtThread) : Prop :=
  ∀ slot ∈ thread.posted, slot < 2 ^ logRingDepth ∧ config.Holds round (thread.slots slot)

/-- A writer is at a buffer that the NIC does not have. -/
structure Writing (round slot : Nat) (stores : List Store) (thread : MtThread) : Prop where
  slot_lt : slot < 2 ^ logRingDepth
  not_posted : slot ∉ thread.posted
  completes : config.Completes round stores (thread.slots slot)

end MtConfig

section Buffers

variable {config : MtConfig} {round slot : Nat} {thread : MtThread} {stores : List Store}
  {first : Store} {buffer : Buffer}

/-- The fields behind the addresses leave the addresses alone. -/
theorem not_touches_of_headerField {threadIndex : BitVec 64} {position : Nat}
    (hposition : position < 12) :
    ∀ store ∈ (headerFields threadIndex).map fun field => Store.write field.1 field.2,
      ¬store.Touches position := by
  have hplaces : ∀ place ∈ (headerFields threadIndex).map Prod.fst, 12 ≤ place := by
    change ∀ place ∈ [12, 14, 15, 16, 18, 20, 22, 23, 26, 30, 38, 34, 36], 12 ≤ place
    decide
  intro store hstore hinside
  obtain ⟨field, hfield, rfl⟩ := List.mem_map.mp hstore
  have hplace := hplaces _ (List.mem_map_of_mem hfield)
  exact absurd hinside.1 (by omega)

theorem addressStores_rest {threadIndex : BitVec 8} :
    ∀ store ∈ (addressStores threadIndex).tail, ¬store.Touches 6 := by
  simp [addressStores, Store.Touches, dstAddr]

/-- Each of the three ways to write a packet puts both addresses in place. -/
theorem MtConfig.stores_makes (config : MtConfig) (round : Nat) (stack : Buffer)
    (writer : Writer) : config.Makes round (config.stores round stack writer) := by
  cases writer with
  | handler => exact ⟨fun _ => addressed_readBytes (by decide) rfl rfl, addressStores_rest⟩
  | call =>
      rw [stores]
      split
      · refine ⟨fun _ => addressed_readBytes (by decide) rfl rfl, ?_⟩
        simp [preparePacketHost]
      · refine ⟨fun _ => addressed_readBytes (by decide) rfl rfl, ?_⟩
        intro store hstore
        obtain hstore | hstore := List.mem_append.mp hstore
        · exact addressStores_rest store hstore
        · exact not_touches_of_headerField (by decide) store hstore

theorem MtConfig.Completes.store (hcompletes : config.Completes round (first :: stores) buffer) :
    config.Completes round stores (first.apply buffer) := by
  right
  obtain hmakes | ⟨hkeeps, hholds⟩ := hcompletes
  · -- The first assignment settles the first byte of the source address.
    exact ⟨hmakes.rest, Or.inl (hmakes.addressed buffer)⟩
  · exact ⟨fun _ hmem => hkeeps _ (.tail _ hmem), hholds⟩

theorem MtConfig.Completes.holds (hcompletes : config.Completes round [] buffer) :
    config.Holds round buffer := by
  obtain hmakes | ⟨-, hholds⟩ := hcompletes
  · exact Or.inl (hmakes.addressed buffer)
  · exact hholds

/-- A frame from the peer does no harm at any point. -/
theorem MtConfig.Completes.fromPeer (hcompletes : config.Completes round stores buffer)
    (hshared : config.txSharedRxBuffer = true) {other : Buffer} (hpeer : FromPeer other) :
    config.Completes round stores other := by
  obtain hmakes | ⟨hkeeps, -⟩ := hcompletes
  · exact Or.inl hmakes
  · -- The rest of the assignments leaves the peer's first byte, which no rule lets out.
    exact Or.inr ⟨hkeeps, Or.inr ⟨hshared, (applyStores_of_not_touched hkeeps other).trans hpeer⟩⟩

theorem MtConfig.Answer.fromPeer {frame : Frame} (hanswer : config.Answer round frame) :
    FromPeer (writeBytes buffer frame) := by
  have hsrc := congrArg List.head? hanswer.addressed.src
  rw [Frame.src, List.head?_take, if_neg (by decide), List.head?_drop] at hsrc
  rw [FromPeer, writeBytes_apply, hsrc]
  rfl

theorem MtConfig.Ready.write (hready : config.Ready round thread) (hslot : slot ∉ thread.posted) :
    config.Ready round (thread.write slot stores) := by
  intro other hother
  rw [MtThread.slots_write, if_neg (ne_of_mem_of_not_mem hother hslot)]
  exact hready other hother

theorem MtConfig.Ready.post (hready : config.Ready round thread)
    (hwriting : config.Writing round slot [] thread) :
    config.Ready round (thread.post slot) := by
  intro other hother
  obtain hother | hother := List.mem_append.mp hother
  · exact hready other hother
  · obtain rfl := List.mem_singleton.mp hother
    exact ⟨hwriting.slot_lt, hwriting.completes.holds⟩

/-- A received frame is an answer, or it goes to a buffer that is not sent from. -/
theorem MtThread.slots_receive {frame : Frame} (hslot : slot < 2 ^ logRingDepth)
    (hframe : config.txSharedRxBuffer = true → config.Answer round frame) :
    (thread.receive (config.rxSlot thread.received) frame).slots slot = thread.slots slot ∨
      config.txSharedRxBuffer = true ∧
        FromPeer ((thread.receive (config.rxSlot thread.received) frame).slots slot) := by
  by_cases heq : slot = config.rxSlot thread.received
  · have hshared : config.txSharedRxBuffer = true :=
      MtConfig.shared_of_rxSlot_lt (heq ▸ hslot)
    right
    rw [heq, MtThread.receive_slots_self]
    exact ⟨hshared, (hframe hshared).fromPeer⟩
  · left
    exact MtThread.receive_slots_of_ne heq

theorem MtConfig.Ready.receive (hready : config.Ready round thread) {frame : Frame}
    (hframe : config.txSharedRxBuffer = true → config.Answer round frame) :
    config.Ready round (thread.receive (config.rxSlot thread.received) frame) := by
  intro slot hslot
  obtain ⟨hlt, hholds⟩ := hready slot hslot
  refine ⟨hlt, ?_⟩
  obtain hsame | hpeer := MtThread.slots_receive hlt hframe
  · rw [hsame]
    exact hholds
  · exact Or.inr hpeer

theorem MtConfig.Writing.receive (hwriting : config.Writing round slot stores thread)
    {frame : Frame} (hframe : config.txSharedRxBuffer = true → config.Answer round frame) :
    config.Writing round slot stores (thread.receive (config.rxSlot thread.received) frame) := by
  refine ⟨hwriting.slot_lt, hwriting.not_posted, ?_⟩
  obtain hsame | ⟨hshared, hpeer⟩ := MtThread.slots_receive hwriting.slot_lt hframe
  · rw [hsame]
    exact hwriting.completes
  · exact hwriting.completes.fromPeer hshared hpeer

/-- The writer itself makes an assignment. -/
theorem MtConfig.Writing.store (hwriting : config.Writing round slot (first :: stores) thread) :
    config.Writing round slot stores (thread.write slot [first]) := by
  refine ⟨hwriting.slot_lt, hwriting.not_posted, ?_⟩
  rw [MtThread.slots_write, if_pos rfl]
  exact hwriting.completes.store

/-- Another writer makes an assignment. -/
theorem MtConfig.Writing.write (hwriting : config.Writing round slot stores thread) {other : Nat}
    (hne : slot ≠ other) (written : List Store) :
    config.Writing round slot stores (thread.write other written) := by
  refine ⟨hwriting.slot_lt, hwriting.not_posted, ?_⟩
  rw [MtThread.slots_write, if_neg hne]
  exact hwriting.completes

theorem MtConfig.Writing.post (hwriting : config.Writing round slot stores thread) {other : Nat}
    (hne : slot ≠ other) : config.Writing round slot stores (thread.post other) := by
  refine ⟨hwriting.slot_lt, ?_, hwriting.completes⟩
  intro hposted
  obtain hposted | hposted := List.mem_append.mp hposted
  · exact hwriting.not_posted hposted
  · exact hne (List.mem_singleton.mp hposted)

theorem MtConfig.Answer.selects_iff {origin queue : Nat} {frame : Frame}
    (hanswer : config.Answer origin frame) (hqueue : queue < config.threadNum) :
    (config.rule queue).Selects frame.dst ↔ queue = origin := by
  rw [MtConfig.rule_selects_iff hqueue, hanswer.addressed.dst]
  constructor
  · intro heq
    exact (MtConfig.addr_inj hanswer.origin_lt hqueue heq).symm
  · rintro rfl
    rfl

theorem MtConfig.Sent.reflected {origin : Nat} {frame : Frame} (hsent : config.Sent origin frame) :
    config.Answer origin frame.swapMacs := by
  have hheader : 14 ≤ frame.length := by
    rw [hsent.length]
    decide
  exact ⟨hsent.origin_lt, hsent.addressed.swapMacs hheader,
    (Frame.length_swapMacs hheader).trans hsent.length⟩

end Buffers

/-! ## Every answer comes back to its thread -/

/-- What the NIC has can be sent, no two writers are at one buffer, and the frames on the
way are packets of the threads or answers to them. -/
structure Steered (config : MtConfig) (state : MtSender) : Prop where
  ready : ∀ round, config.Ready round (state.thread round)
  writing : ∀ writer slot stores, state.progress writer = .writing slot stores →
    config.Writing (state.round writer) slot stores (state.thread (state.round writer))
  apart : ∀ writer other slot stores rest, other ≠ writer → state.round other = state.round writer →
    state.progress writer = .writing slot stores → state.progress other ≠ .writing slot rest
  outward : ∀ origin frame, (origin, frame) ∈ state.outward → config.Sent origin frame
  inward : ∀ origin frame, (some origin, frame) ∈ state.inward → config.Answer origin frame
  foreign : ∀ frame, (none, frame) ∈ state.inward → config.txSharedRxBuffer = true →
    ∀ queue < config.threadNum, ¬(config.rule queue).Selects frame.dst
  delivered : ∀ origin queue, (some origin, queue) ∈ state.delivered → queue = origin

/-- The runs that the results are about. -/
def Orderly (config : MtConfig) (state : MtSender) (action : MtAction) : Prop :=
  Undisturbed config state action ∧ Exclusive state action

section Steered

variable {config : MtConfig} {state : MtSender}

theorem Steered.init (slots : Nat → Nat → Buffer) : Steered config (.init slots) where
  ready _ _ hslot := absurd hslot List.not_mem_nil
  writing _ _ _ hwriting := nomatch hwriting
  apart _ _ _ _ _ _ _ hwriting := nomatch hwriting
  outward _ _ hframe := absurd hframe List.not_mem_nil
  inward _ _ hframe := absurd hframe List.not_mem_nil
  foreign _ hframe := absurd hframe List.not_mem_nil
  delivered _ _ hitem := absurd hitem List.not_mem_nil

/-- A writer moves: it is enough to look at its own thread and at the writers there. -/
theorem Steered.advance (hinv : Steered config state) {writer : Writer}
    {change : MtThread → MtThread} {progress : Progress}
    (hready : config.Ready (state.round writer) (change (state.thread (state.round writer))))
    (hself : ∀ slot stores, progress = .writing slot stores →
      config.Writing (state.round writer) slot stores (change (state.thread (state.round writer))))
    (hothers : ∀ other slot stores, other ≠ writer → state.round other = state.round writer →
      state.progress other = .writing slot stores →
      config.Writing (state.round writer) slot stores
        (change (state.thread (state.round writer))) ∧ ∀ rest, progress ≠ .writing slot rest) :
    Steered config (state.advance writer change progress) := by
  -- All fields are about one thread at a time: the writer's own one, or one that stays.
  refine { hinv with ready := ?_, writing := ?_, apart := ?_ }
  · intro round
    by_cases heq : round = state.round writer
    · rw [MtSender.advance_thread_self heq.symm, heq]
      exact hready
    · rw [MtSender.advance_thread_of_ne heq]
      exact hinv.ready round
  · intro other slot stores hwriting
    rw [MtSender.advance_round]
    by_cases heq : other = writer
    · subst other
      rw [MtSender.advance_progress_self] at hwriting
      rw [MtSender.advance_thread_self rfl]
      exact hself slot stores hwriting
    · rw [MtSender.advance_progress_of_ne heq] at hwriting
      by_cases hround : state.round other = state.round writer
      · rw [hround, MtSender.advance_thread_self rfl]
        exact (hothers other slot stores heq hround hwriting).1
      · rw [MtSender.advance_thread_of_ne hround]
        exact hinv.writing other slot stores hwriting
  · intro first second slot stores rest hne hround hwriting hsecond
    rw [MtSender.advance_round, MtSender.advance_round] at hround
    by_cases hfirst : first = writer
    · subst first
      rw [MtSender.advance_progress_self] at hwriting
      rw [MtSender.advance_progress_of_ne hne] at hsecond
      exact (hothers second slot rest hne hround hsecond).2 stores hwriting
    · rw [MtSender.advance_progress_of_ne hfirst] at hwriting
      by_cases heq : second = writer
      · subst second
        rw [MtSender.advance_progress_self] at hsecond
        exact (hothers first slot stores hfirst hround.symm hwriting).2 rest hsecond
      · rw [MtSender.advance_progress_of_ne heq] at hsecond
        exact hinv.apart first second slot stores rest hne hround hwriting hsecond

/-- The NIC changes a thread. -/
theorem Steered.setThread (hinv : Steered config state) {round : Nat} {thread : MtThread}
    (hready : config.Ready round thread)
    (hwriting : ∀ slot stores, config.Writing round slot stores (state.thread round) →
      config.Writing round slot stores thread) :
    Steered config (state.setThread round thread) := by
  refine { hinv with ready := ?_, writing := ?_, apart := hinv.apart }
  · intro other
    by_cases heq : other = round
    · rw [heq, MtSender.setThread_self]
      exact hready
    · rw [MtSender.setThread_of_ne heq]
      exact hinv.ready other
  · intro writer slot stores hprogress
    have hbefore := hinv.writing writer slot stores hprogress
    change config.Writing (state.round writer) slot stores
      ((state.setThread round thread).thread (state.round writer))
    by_cases heq : state.round writer = round
    · rw [heq, MtSender.setThread_self]
      rw [heq] at hbefore
      exact hwriting slot stores hbefore
    · rw [MtSender.setThread_of_ne heq]
      exact hbefore

theorem Steered.load (hinv : Steered config state) {writer : Writer} (txBuffIdx : BitVec 32) :
    Steered config (state.advance writer id (.loaded txBuffIdx)) := by
  refine hinv.advance (hinv.ready _) nofun ?_
  intro other slot stores _ hround hwriting
  have hbefore := hinv.writing other slot stores hwriting
  rw [hround] at hbefore
  exact ⟨hbefore, fun _ => nofun⟩

theorem Steered.take (hinv : Steered config state) {writer : Writer} {txBuffIdx : BitVec 32}
    (stack : Buffer) (hloaded : state.progress writer = .loaded txBuffIdx)
    (hexclusive : Exclusive state (.take writer)) :
    Steered config (state.advance writer (·.setTxBuffIdx (txBuffIdx + 1))
      (.writing (slotOf txBuffIdx) (config.stores (state.round writer) stack writer))) := by
  obtain ⟨hposted, halone⟩ := hexclusive txBuffIdx hloaded
  refine hinv.advance (hinv.ready _) ?_ ?_
  · rintro _ _ ⟨⟩
    exact ⟨slotOf_lt _, hposted, Or.inl (config.stores_makes _ _ _)⟩
  · intro other slot stores _ hround hwriting
    have hbefore := hinv.writing other slot stores hwriting
    rw [hround] at hbefore
    refine ⟨⟨hbefore.slot_lt, hbefore.not_posted, hbefore.completes⟩, ?_⟩
    rintro _ ⟨⟩
    exact halone other stores hround hwriting

theorem Steered.store (hinv : Steered config state) {writer : Writer} {slot : Nat}
    {first : Store} {stores : List Store}
    (hwriting : state.progress writer = .writing slot (first :: stores)) :
    Steered config (state.advance writer (·.write slot [first]) (.writing slot stores)) := by
  have hself := hinv.writing writer slot _ hwriting
  refine hinv.advance ((hinv.ready _).write hself.not_posted) ?_ ?_
  · rintro _ _ ⟨⟩
    exact hself.store
  · intro other place rest hne hround hother
    have hplace : place ≠ slot := by
      rintro rfl
      exact hinv.apart writer other place _ rest hne hround hwriting hother
    have hbefore := hinv.writing other place rest hother
    rw [hround] at hbefore
    refine ⟨hbefore.write hplace _, ?_⟩
    rintro _ ⟨⟩
    exact hplace rfl

theorem Steered.post (hinv : Steered config state) {round slot : Nat}
    (hwritten : state.progress (.handler round) = .writing slot []) :
    Steered config (state.advance (.handler round) (·.post slot) .idle) := by
  have hself := hinv.writing (.handler round) slot [] hwritten
  refine hinv.advance ((hinv.ready _).post hself) nofun ?_
  intro other place rest hne hround hother
  have hplace : place ≠ slot := by
    rintro rfl
    exact hinv.apart _ other place _ rest hne hround hwritten hother
  have hbefore := hinv.writing other place rest hother
  rw [hround] at hbefore
  exact ⟨hbefore.post hplace, fun _ => nofun⟩

/-- The call goes on to its next buffer, perhaps of another thread. -/
theorem Steered.next (hinv : Steered config state) :
    Steered config { state.advance .call id .idle with prepared := state.prepared + 1 } := by
  have hidle : Steered config (state.advance .call id .idle) := by
    refine hinv.advance (hinv.ready _) nofun ?_
    intro other slot stores _ hround hwriting
    have hbefore := hinv.writing other slot stores hwriting
    rw [hround] at hbefore
    exact ⟨hbefore, fun _ => nofun⟩
  -- The round of the call changes, but the call is at no buffer now.
  have hcall : (state.advance .call id .idle).progress .call = .idle :=
    MtSender.advance_progress_self
  refine { hidle with writing := ?_, apart := ?_ }
  · intro writer slot stores hwriting
    cases writer with
    | handler round => exact hidle.writing (.handler round) slot stores hwriting
    | call => exact nomatch hcall.symm.trans hwriting
  · intro writer other slot stores rest hne hround hwriting hother
    cases writer with
    | handler round =>
        cases other with
        | handler round' => exact hne (congrArg Writer.handler hround)
        | call => exact nomatch hcall.symm.trans hother
    | call => exact nomatch hcall.symm.trans hwriting

theorem Steered.pop (hinv : Steered config state) {round slot : Nat} {rest : List Nat}
    (hposted : (state.thread round).posted = slot :: rest) :
    Steered config (state.setThread round { state.thread round with posted := rest }) := by
  have hsubset : ∀ other ∈ rest, other ∈ (state.thread round).posted := by
    intro other hother
    rw [hposted]
    exact List.mem_cons_of_mem _ hother
  refine hinv.setThread (fun other hother => hinv.ready round other (hsubset other hother)) ?_
  intro place stores hwriting
  exact ⟨hwriting.slot_lt, fun hmem => hwriting.not_posted (hsubset place hmem),
    hwriting.completes⟩

/-- The NIC sends packets of the thread only: no rule lets anything else out. -/
theorem Steered.sent (hinv : Steered config state) {round slot sender : Nat}
    (hround : round < config.threadNum) (hslot : slot ∈ (state.thread round).posted)
    (hsender : sender < config.threadNum)
    (hrule : (config.rule sender).Selects
      (Frame.src (readBytes ((state.thread round).slots slot) pktSize))) :
    config.Sent round (readBytes ((state.thread round).slots slot) pktSize) := by
  obtain ⟨-, haddressed | ⟨-, hpeer⟩⟩ := hinv.ready round slot hslot
  · exact ⟨hround, haddressed, length_readBytes _ _⟩
  · exact absurd hrule (hpeer.not_selects hsender)

/-- Only an answer to the thread itself gets into its send buffers. -/
theorem Steered.origin_eq (hinv : Steered config state) {origin : Option Nat} {frame : Frame}
    {queue : Nat} (hmem : (origin, frame) ∈ state.inward)
    (hshared : config.txSharedRxBuffer = true) (hqueue : queue < config.threadNum)
    (hrule : (config.rule queue).Selects frame.dst) : origin = some queue := by
  cases origin with
  | none => exact absurd hrule (hinv.foreign frame hmem hshared queue hqueue)
  | some origin => rw [((hinv.inward origin frame hmem).selects_iff hqueue).mp hrule]

theorem Steered.transmit (hinv : Steered config state) {round slot sender : Nat}
    {rest : List Nat} (hround : round < config.threadNum)
    (hposted : (state.thread round).posted = slot :: rest) (hsender : sender < config.threadNum)
    (hrule : (config.rule sender).Selects
      (Frame.src (readBytes ((state.thread round).slots slot) pktSize))) :
    Steered config
      { state.setThread round { state.thread round with posted := rest } with
        outward := state.outward ++
          [(round, readBytes ((state.thread round).slots slot) pktSize)] } := by
  have hslot : slot ∈ (state.thread round).posted := by
    rw [hposted]
    exact List.mem_cons_self
  refine { hinv.pop hposted with outward := ?_ }
  intro origin frame hframe
  obtain hframe | ⟨rfl, rfl⟩ := mem_concat.mp hframe
  · exact hinv.outward origin frame hframe
  · exact hinv.sent hround hslot hsender hrule

theorem Steered.reflect (hinv : Steered config state) {origin : Nat} {frame : Frame}
    (houtward : (origin, frame) ∈ state.outward) :
    Steered config
      { state with
        outward := state.outward.erase (origin, frame)
        inward := state.inward ++ [(some origin, frame.swapMacs)] } := by
  refine { hinv with
    outward := fun other _ hother => hinv.outward other _ (List.mem_of_mem_erase hother)
    inward := ?_
    foreign := ?_ }
  · intro other reply hreply
    obtain hreply | ⟨⟨⟩, rfl⟩ := mem_concat.mp hreply
    · exact hinv.inward other reply hreply
    · exact (hinv.outward origin frame houtward).reflected
  · intro reply hreply
    obtain hreply | ⟨⟨⟩, -⟩ := mem_concat.mp hreply
    exact hinv.foreign reply hreply

/-- A frame of somebody else that no rule puts into a send buffer. -/
theorem Steered.arrive (hinv : Steered config state) {frame : Frame}
    (hundisturbed : Undisturbed config state (.arrive frame)) :
    Steered config { state with inward := state.inward ++ [(none, frame)] } := by
  refine { hinv with inward := ?_, foreign := ?_ }
  · intro origin reply hreply
    obtain hreply | ⟨⟨⟩, -⟩ := mem_concat.mp hreply
    exact hinv.inward origin reply hreply
  · intro reply hreply
    obtain hreply | ⟨-, rfl⟩ := mem_concat.mp hreply
    · exact hinv.foreign reply hreply
    · exact hundisturbed

theorem Steered.receive (hinv : Steered config state) {origin : Option Nat} {frame : Frame}
    {queue : Nat} (hinward : (origin, frame) ∈ state.inward) (hqueue : queue < config.threadNum)
    (hrule : (config.rule queue).Selects frame.dst) :
    Steered config
      { state.setThread queue ((state.thread queue).receive
          (config.rxSlot (state.thread queue).received) frame) with
        inward := state.inward.erase (origin, frame)
        delivered := state.delivered ++ [(origin, queue)] } := by
  -- With separate buffers nothing is known of the frame, and nothing has to be.
  have hframe : config.txSharedRxBuffer = true → config.Answer queue frame := by
    intro hshared
    obtain rfl := hinv.origin_eq hinward hshared hqueue hrule
    exact hinv.inward queue frame hinward
  refine { hinv.setThread ((hinv.ready queue).receive hframe)
      fun _ _ hwriting => hwriting.receive hframe with
    inward := fun other _ hother => hinv.inward other _ (List.mem_of_mem_erase hother)
    foreign := fun _ hother => hinv.foreign _ (List.mem_of_mem_erase hother)
    delivered := ?_ }
  intro other into hitem
  obtain hitem | ⟨rfl, rfl⟩ := mem_concat.mp hitem
  · exact hinv.delivered other into hitem
  · exact ((hinv.inward other frame hinward).selects_iff hqueue).mp hrule

theorem Steered.step (hinv : Steered config state) {action : MtAction} {next : MtSender}
    (hstep : MtStep config state action next) (horderly : Orderly config state action) :
    Steered config next := by
  cases hstep with
  | load hactive hidle => exact hinv.load _
  | take stack hactive hloaded => exact hinv.take stack hloaded horderly.2
  | store hactive hwriting => exact hinv.store hwriting
  | post hround hwritten => exact hinv.post hwritten
  | next hprepared hwritten => exact hinv.next
  | transmit hround hposted hsender hrule => exact hinv.transmit hround hposted hsender hrule
  | block hround hposted hrule => exact hinv.pop hposted
  | reflect houtward hdst => exact hinv.reflect houtward
  | arrive frame => exact hinv.arrive horderly.1
  | receive hinward hqueue hrule hroom => exact hinv.receive hinward hqueue hrule
  | loseOutward houtward =>
      exact { hinv with
        outward := fun other _ hother => hinv.outward other _ (List.mem_of_mem_erase hother) }
  | loseInward hinward =>
      exact { hinv with
        inward := fun other _ hother => hinv.inward other _ (List.mem_of_mem_erase hother)
        foreign := fun _ hother => hinv.foreign _ (List.mem_of_mem_erase hother) }

theorem mtSystem_steered (hreach : ((mtSystem config).restrict (Orderly config)).Reachable state) :
    Steered config state := by
  refine System.Reachable.invariant ?_ ?_ hreach
  · rintro state ⟨slots, rfl⟩
    exact .init slots
  · intro state action next _ hinv hstep
    exact hinv.step hstep.2 hstep.1

/-- Every answer that is delivered is delivered to the thread whose packet it answers, and
of the rules that the host has made, the one of this thread alone selects an answer
that is still on its way. -/
theorem answers_steered (hreach : ((mtSystem config).restrict (Orderly config)).Reachable state) :
    (∀ origin queue, (some origin, queue) ∈ state.delivered → queue = origin) ∧
      ∀ origin frame, (some origin, frame) ∈ state.inward → ∀ queue < config.threadNum,
        ((config.rule queue).Selects frame.dst ↔ queue = origin) := by
  have hinv := mtSystem_steered hreach
  exact ⟨hinv.delivered, fun _ _ hframe _ hqueue => (hinv.inward _ _ hframe).selects_iff hqueue⟩

/-- A writer that has its thread to itself may take a buffer that is not posted. -/
theorem exclusive_take {writer : Writer}
    (hposted : slotOf (state.thread (state.round writer)).txBuffIdx ∉
      (state.thread (state.round writer)).posted)
    (hidle : ∀ other, other ≠ writer → state.round other = state.round writer →
      state.progress other = .idle) :
    Exclusive (state.advance writer id (.loaded (state.thread (state.round writer)).txBuffIdx))
      (.take writer) := by
  intro txBuffIdx hloaded
  rw [MtSender.advance_progress_self] at hloaded
  obtain rfl := Progress.loaded.inj hloaded
  rw [MtSender.advance_round, MtSender.advance_thread_self rfl]
  refine ⟨hposted, ?_⟩
  intro other stores hround hwriting
  by_cases heq : other = writer
  · rw [heq, MtSender.advance_progress_self] at hwriting
    exact nomatch hwriting
  · rw [MtSender.advance_round] at hround
    rw [MtSender.advance_progress_of_ne heq, hidle other heq hround] at hwriting
    exact nomatch hwriting

/-- A packet that is about to be sent can be answered at once. The answer goes where the
source address of the packet leads, whoever has sent it. -/
theorem exists_delivered {allowed : MtSender → MtAction → Prop}
    (htransmit : ∀ state round, allowed state (.transmit round))
    (hreflect : ∀ state, allowed state .reflect)
    (hreceive : ∀ state queue, allowed state (.receive queue))
    (hreach : ((mtSystem config).restrict allowed).Reachable state) {round queue slot : Nat}
    {rest : List Nat} (hround : round < config.threadNum) (hqueue : queue < config.threadNum)
    (hposted : (state.thread round).posted = slot :: rest)
    (haddressed : Addressed (config.addr queue) dstAddr
      (readBytes ((state.thread round).slots slot) pktSize))
    (hroom : (state.thread queue).received < 2 ^ logRingDepth) :
    ∃ next, ((mtSystem config).restrict allowed).Reachable next ∧
      next.delivered = state.delivered ++ [(some round, queue)] ∧
      ∀ other, other ≠ round → other ≠ queue → next.thread other = state.thread other := by
  have hheader : 14 ≤ (readBytes ((state.thread round).slots slot) pktSize).length := by
    rw [length_readBytes]
    decide
  -- Out under the rule of the other thread, back from the peer, and into its queue.
  have hsent := hreach.step_restrict
    (MtStep.transmit hround hposted hqueue ((MtConfig.rule_selects_iff hqueue).mpr haddressed.src))
    (htransmit _ _)
  have hreflected := hsent.step_restrict
    (MtStep.reflect (List.mem_append_right _ List.mem_cons_self) haddressed.dst) (hreflect _)
  have hdst := (haddressed.swapMacs hheader).dst
  have hreceived := hreflected.step_restrict
    (MtStep.receive (List.mem_append_right _ List.mem_cons_self) hqueue
      ((MtConfig.rule_selects_iff hqueue).mpr hdst) ?_) (hreceive _ _)
  · refine ⟨_, hreceived, rfl, ?_⟩
    intro other hne hne'
    exact (MtSender.setThread_of_ne hne').trans (MtSender.setThread_of_ne hne)
  · change ((state.setThread round _).thread queue).received < _
    by_cases heq : queue = round
    · subst queue
      rw [MtSender.setThread_self]
      exact hroom
    · rw [MtSender.setThread_of_ne heq]
      exact hroom

/-- Two threads whose queues share their buffers, as the host has it. -/
def twoSenders : MtConfig where
  threadNum := 2
  beginThread := 0
  sqOnHost := true
  txSharedRxBuffer := true
  initialized := by decide

/-- The first handler is between the two assignments to its source address while the
second one sends. -/
theorem exists_bothPosted :
    ∃ state, ((mtSystem twoSenders).restrict (Orderly twoSenders)).Reachable state ∧
      state.delivered = [] ∧ ∀ round < 2, (state.thread round).posted = [0] ∧
        (state.thread round).received = 0 ∧
        Addressed (twoSenders.addr round) dstAddr
          (readBytes ((state.thread round).slots 0) pktSize) := by
  have hstart : ((mtSystem twoSenders).restrict (Orderly twoSenders)).Reachable
      (.init fun _ _ _ => 0) := .start ⟨_, rfl⟩
  have hfirst := @written_reachable twoSenders _ _ (.handler 0) hstart ⟨trivial, trivial⟩
    ⟨trivial, exclusive_take List.not_mem_nil fun _ _ _ => rfl⟩ (fun _ => ⟨trivial, trivial⟩)
    (by decide : 0 < 2) rfl (fun _ => 0) [.write 6 srcAddr] _ rfl
  have hsecond := @send_reachable twoSenders _ _ 1 hfirst ⟨trivial, trivial⟩
    ⟨trivial, exclusive_take List.not_mem_nil ?_⟩ (fun _ => ⟨trivial, trivial⟩)
    (fun _ => ⟨trivial, trivial⟩) (by decide) rfl
  · have hposted := @posted_reachable twoSenders _ _ 0 0 _ hsecond (fun _ => ⟨trivial, trivial⟩)
      (fun _ => ⟨trivial, trivial⟩) (by decide) rfl
    refine ⟨_, hposted, rfl, ?_⟩
    intro round hround
    obtain rfl | rfl : round = 0 ∨ round = 1 := by omega
    · exact ⟨rfl, rfl, addressed_readBytes (by decide) rfl rfl⟩
    · exact ⟨rfl, rfl, addressed_readBytes (by decide) rfl rfl⟩
  · intro other _ hround
    cases other with
    | handler round =>
        obtain rfl : round = 1 := hround
        rfl
    | call => rfl

/-- Both packets are answered, the second one first. -/
theorem answers_steered_twoSenders :
    ∃ state, ((mtSystem twoSenders).restrict (Orderly twoSenders)).Reachable state ∧
      state.delivered = [(some 1, 1), (some 0, 0)] ∧
      ∀ origin queue, (some origin, queue) ∈ state.delivered → queue = origin := by
  obtain ⟨posted, hposted, hnone, hready⟩ := exists_bothPosted
  obtain ⟨hone, hroom, haddressed⟩ := hready 1 (by decide)
  obtain ⟨answered, hanswered, hdelivered, hthread⟩ := @exists_delivered twoSenders _
    (Orderly twoSenders) (fun _ _ => ⟨trivial, trivial⟩) (fun _ => ⟨trivial, trivial⟩)
    (fun _ _ => ⟨trivial, trivial⟩) hposted 1 1 0 [] (by decide) (by decide) hone haddressed
    (by rw [hroom]; decide)
  obtain ⟨hzero, hroom', haddressed'⟩ := hready 0 (by decide)
  rw [← hthread 0 (by decide) (by decide)] at hzero hroom' haddressed'
  obtain ⟨final, hfinal, hboth, -⟩ := @exists_delivered twoSenders _
    (Orderly twoSenders) (fun _ _ => ⟨trivial, trivial⟩) (fun _ => ⟨trivial, trivial⟩)
    (fun _ _ => ⟨trivial, trivial⟩) hanswered 0 0 0 [] (by decide) (by decide) hzero haddressed'
    (by rw [hroom']; decide)
  rw [hdelivered, hnone] at hboth
  exact ⟨final, hfinal, hboth, (answers_steered hfinal).1⟩

end Steered

/-! ## A frame from elsewhere -/

/-- The frame of another sender that uses the addresses of two threads. -/
def strayFrame (config : MtConfig) (round other : Nat) : Frame :=
  config.addr round ++ config.addr other ++ List.replicate 52 0

section Misdirected

variable {config : MtConfig} {round other : Nat}

/-- A handler has written the source address and not yet the destination. -/
theorem exists_source (hround : round < config.threadNum) :
    ∃ state, ((mtSystem config).restrict Exclusive).Reachable state ∧
      state.progress (.handler round) = .writing 0 [.write 0 dstAddr] ∧
      (state.thread round).posted = [] ∧ (∀ queue, (state.thread queue).received = 0) ∧
      state.delivered = [] := by
  have hstart : ((mtSystem config).restrict Exclusive).Reachable
      (.init fun _ _ _ => 0) := .start ⟨_, rfl⟩
  have hsource := @written_reachable config _ _ (.handler round) hstart trivial
    (exclusive_take List.not_mem_nil fun _ _ _ => rfl) (fun _ => trivial) hround rfl (fun _ => 0)
    [.write 6 srcAddr, .add 11 ((config.threadIndex round).setWidth 8)] _ rfl
  have hslot : slotOf 0 = 0 := slotOf_ofNat 0
  refine ⟨_, hsource, MtSender.advance_progress_self.trans ?_, ?_, ?_, rfl⟩
  · exact congrArg (Progress.writing · _) hslot
  · rw [MtSender.advance_handler_thread]
    rfl
  · intro queue
    by_cases heq : queue = round
    · subst heq
      rw [MtSender.advance_handler_thread]
      rfl
    · rw [MtSender.advance_thread_of_ne heq]
      rfl

/-- The frame is received then. -/
theorem exists_received (hshared : config.txSharedRxBuffer = true)
    (hround : round < config.threadNum) (hne : other ≠ round) :
    ∃ state, ((mtSystem config).restrict Exclusive).Reachable state ∧
      state.progress (.handler round) = .writing 0 [.write 0 dstAddr] ∧
      (state.thread round).posted = [] ∧
      (∃ buffer, (state.thread round).slots 0 =
        writeBytes buffer (strayFrame config round other)) ∧
      (state.thread other).received = 0 ∧ state.delivered = [(none, round)] := by
  obtain ⟨state, hreach, hwriting, hposted, hreceived, hdelivered⟩ := exists_source hround
  have hrule : (config.rule round).Selects (strayFrame config round other).dst :=
    (MtConfig.rule_selects_iff hround).mpr rfl
  have hslot : config.rxSlot (state.thread round).received = 0 := by
    rw [hreceived]
    exact if_pos hshared
  have harrived := hreach.step_restrict (MtStep.arrive (strayFrame config round other)) trivial
  have hstray := harrived.step_restrict
    (MtStep.receive (List.mem_append_right _ List.mem_cons_self) hround hrule
      (by rw [hreceived]; decide)) trivial
  refine ⟨_, hstray, hwriting, ?_, ⟨(state.thread round).slots 0, ?_⟩, ?_, ?_⟩
  · rw [MtSender.setThread_self]
    exact hposted
  · rw [MtSender.setThread_self, hslot]
    exact MtThread.receive_slots_self ..
  · rw [MtSender.setThread_of_ne hne]
    exact hreceived other
  · exact congrArg (· ++ [(none, round)]) hdelivered

/-- Where the queues share their buffers, one frame from elsewhere is enough. Received
between the assignments to the two addresses, it leaves its source address in the
packet, and the answer to that packet goes to another thread. -/
theorem stray_frame_misdirects (hshared : config.txSharedRxBuffer = true)
    (hround : round < config.threadNum) (hother : other < config.threadNum)
    (hne : other ≠ round) :
    ∃ state, ((mtSystem config).restrict Exclusive).Reachable state ∧
      state.delivered = [(none, round), (some round, other)] := by
  obtain ⟨state, hreach, hwriting, hposted, ⟨buffer, hbuffer⟩, hreceived, hdelivered⟩ :=
    exists_received hshared hround hne
  have hwritten := posted_reachable hreach (fun _ => trivial) (fun _ => trivial) hround hwriting
  obtain ⟨next, hnext⟩ : ∃ next, next = state.advance (.handler round)
    (fun thread => (thread.write 0 [.write 0 dstAddr]).post 0) .idle := ⟨_, rfl⟩
  have hthread : next.thread round = ((state.thread round).write 0 [.write 0 dstAddr]).post 0 := by
    rw [hnext, MtSender.advance_handler_thread]
  have hone : (next.thread round).posted = [0] := by
    rw [hthread]
    exact congrArg (· ++ [0]) hposted
  -- The handler goes on with the destination, and the source stays that of the frame.
  have haddressed : Addressed (config.addr other) dstAddr
      (readBytes ((next.thread round).slots 0) pktSize) := by
    refine addressed_readBytes (by decide) rfl ?_
    rw [hthread, MtThread.post, MtThread.slots_write, if_pos rfl, hbuffer]
    rfl
  have hroom : (next.thread other).received < 2 ^ logRingDepth := by
    rw [hnext, MtSender.advance_thread_of_ne hne, hreceived]
    decide
  rw [← hnext] at hwritten
  obtain ⟨final, hfinal, hboth, -⟩ := exists_delivered (fun _ _ => trivial) (fun _ => trivial)
    (fun _ _ => trivial) hwritten hround hother hone haddressed hroom
  rw [hnext] at hboth
  exact ⟨final, hfinal, hboth.trans (congrArg (· ++ [(some round, other)]) hdelivered)⟩

theorem stray_frame_misdirects_first :
    ∃ state, ((mtSystem twoSenders).restrict Exclusive).Reachable state ∧
      state.delivered = [(none, 0), (some 0, 1)] :=
  @stray_frame_misdirects twoSenders 0 1 rfl (by decide) (by decide) (by decide)

/-! ## A handler that is a lap ahead -/

/-- `SRC_ADDR` is the address of the thread with index 0. -/
theorem MtConfig.addr_zero (config : MtConfig) (hbegin : config.beginThread = 0) :
    config.addr 0 = srcAddr := by
  rw [MtConfig.addr, MtConfig.threadIndex, hbegin]
  rfl

/-- After the first assignment a packet still has its destination address. -/
theorem Addressed.overwritten {src : List (BitVec 8)} {buffer : Buffer}
    (haddressed : Addressed src dstAddr (readBytes buffer pktSize)) :
    Addressed srcAddr dstAddr (readBytes (applyStores [.write 6 srcAddr] buffer) pktSize) := by
  constructor
  · rw [Frame.src_readBytes (by decide)]
    rfl
  · have hdst := haddressed.dst
    rw [Frame.dst, take_readBytes (by decide)] at hdst ⊢
    rw [← hdst]
    apply readBytes_eq_iff.mpr
    intro position hposition
    exact writeAt_of_not_mem (by omega)

/-- A handler has sent some packets of its first lap, and the NIC none of them. -/
structure Lap (config : MtConfig) (round count : Nat) (state : MtSender) : Prop where
  idle : state.progress (.handler round) = .idle
  counter : (state.thread round).txBuffIdx = BitVec.ofNat 32 count
  posted : (state.thread round).posted = List.range count
  addressed : ∀ slot < count,
    Addressed (config.addr round) dstAddr (readBytes ((state.thread round).slots slot) pktSize)
  room : (state.thread 0).received = 0
  delivered : state.delivered = []

theorem Lap.send {count : Nat} {state : MtSender} (hlap : Lap config round count state)
    (hround : round ≠ 0) (hcount : count < 2 ^ logRingDepth) :
    Lap config round (count + 1) (state.advance (.handler round)
      (·.sendNext ((config.threadIndex round).setWidth 8)) .idle) := by
  have hslot : slotOf (state.thread round).txBuffIdx = count := by
    rw [hlap.counter, slotOf_ofNat, Nat.mod_eq_of_lt hcount]
  refine ⟨MtSender.advance_progress_self, ?_, ?_, ?_, ?_, hlap.delivered⟩
  · rw [MtSender.advance_handler_thread, BitVec.ofNat_add, ← hlap.counter]
    rfl
  · rw [MtSender.advance_handler_thread, List.range_succ, ← hlap.posted, ← hslot]
    rfl
  · intro slot hlt
    rw [MtSender.advance_handler_thread, MtThread.sendNext, MtThread.post, MtThread.writeNext,
      MtThread.slots_write, hslot]
    split
    · exact addressed_readBytes (by decide) rfl rfl
    · exact hlap.addressed slot (by omega)
  · rw [MtSender.advance_thread_of_ne hround.symm]
    exact hlap.room

/-- A whole lap of packets without a step of the NIC. -/
theorem exists_lap (hround : round < config.threadNum) (hne : round ≠ 0) {count : Nat}
    (hcount : count ≤ 2 ^ logRingDepth) :
    ∃ state, ((mtSystem config).restrict (Undisturbed config)).Reachable state ∧
      Lap config round count state := by
  induction count with
  | zero =>
      refine ⟨.init fun _ _ _ => 0, .start ⟨_, rfl⟩, rfl, rfl, rfl, ?_, rfl, rfl⟩
      intro slot hslot
      exact absurd hslot (Nat.not_lt_zero slot)
  | succ count ih =>
      obtain ⟨state, hreach, hlap⟩ := ih (by omega)
      exact ⟨_, send_reachable hreach trivial trivial (fun _ => trivial) (fun _ => trivial) hround
        hlap.idle, hlap.send hne hcount⟩

/-- Nothing makes a handler wait for the NIC. When it is a lap ahead it writes `SRC_ADDR`
to a buffer that is still to be sent. Before it adds its index, the packet leaves under
the address of the thread with index 0, and the answer goes there. -/
theorem lapped_packet_misdirects (hbegin : config.beginThread = 0) (hround : round ≠ 0)
    (hlt : round < config.threadNum) :
    ∃ state, ((mtSystem config).restrict (Undisturbed config)).Reachable state ∧
      state.delivered = [(some round, 0)] := by
  obtain ⟨state, hreach, hlap⟩ := exists_lap hlt hround (le_refl _)
  -- The counter is back at the first buffer, which the NIC still has to send.
  have hslot : slotOf (state.thread round).txBuffIdx = 0 := by
    rw [hlap.counter, slotOf_ofNat, Nat.mod_self]
  have hwritten := @written_reachable config _ _ (.handler round) hreach trivial trivial
    (fun _ => trivial) hlt hlap.idle (fun _ => 0) [.write 6 srcAddr] _ rfl
  obtain ⟨next, hnext⟩ : ∃ next, next = state.advance (.handler round)
    (·.writeNext [.write 6 srcAddr]) (.writing (slotOf (state.thread round).txBuffIdx)
      [.add 11 ((config.threadIndex round).setWidth 8), .write 0 dstAddr]) := ⟨_, rfl⟩
  have hthread : next.thread round = (state.thread round).writeNext [.write 6 srcAddr] := by
    rw [hnext, MtSender.advance_handler_thread]
  have hposted : (next.thread round).posted =
      0 :: (List.range (2 ^ logRingDepth - 1)).map Nat.succ := by
    rw [hthread]
    exact hlap.posted.trans List.range_succ_eq_map
  have haddressed : Addressed (config.addr 0) dstAddr
      (readBytes ((next.thread round).slots 0) pktSize) := by
    rw [hthread, MtThread.writeNext, MtThread.slots_write, if_pos hslot.symm, hslot]
    rw [config.addr_zero hbegin]
    exact (hlap.addressed 0 (by decide)).overwritten
  have hroom : (next.thread 0).received < 2 ^ logRingDepth := by
    rw [hnext, MtSender.advance_thread_of_ne hround.symm, hlap.room]
    decide
  obtain ⟨final, hfinal, hdelivered, -⟩ := exists_delivered (fun _ _ => trivial)
    (fun _ => trivial) (fun _ _ => trivial) (hnext ▸ hwritten) hlt (Nat.zero_lt_of_lt hlt) hposted
    haddressed hroom
  rw [hnext] at hdelivered
  exact ⟨final, hfinal, hdelivered.trans (congrArg (· ++ [(some round, 0)]) hlap.delivered)⟩

theorem lapped_packet_misdirects_second :
    ∃ state, ((mtSystem twoSenders).restrict (Undisturbed twoSenders)).Reachable state ∧
      state.delivered = [(some 1, 0)] :=
  @lapped_packet_misdirects twoSenders 1 rfl (by decide) (by decide)

end Misdirected

end BenchBF3.Dpa.SendMt
