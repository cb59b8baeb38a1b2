import Mathlib.Order.Interval.Finset.Nat
import BenchBF3.Dpa.BankClient
import BenchBF3.Foundation.Loops
import BenchBF3.Foundation.System

/-! # The pipeline of the DPA SmallBank client

The client runs together with a NIC that transmits posted requests in order and
a server that answers each transmitted request once, in any order. Every slot
has one outstanding request, so never more than 64 posted requests wait for
transmission, and the 128 entries of the send ring and of the send buffers are
not written again before the NIC has read them.
-/

namespace BenchBF3.Dpa

open Foundation
open SmallBank (PerPart)

/-! ## The system -/

/-- The client, the requests that the NIC has sent, as it read them, and which
of them are answered. -/
structure Pipeline where
  client : BankClient
  transmitted : List ReqMsg
  answered : Finset Nat

inductive PipelineAction
  | transmit
  | respond (n : Nat) (resp : RespMsg) (draws : Nat → Draw) (stale : PerPart (BitVec 64))

inductive PipelineStep : Pipeline → PipelineAction → Pipeline → Prop
  | transmit {state : Pipeline} {addr : BitVec 64} {byteCount : BitVec 32}
      (hrung : BitVec.ofNat 32 state.transmitted.length ≠ state.client.sqDb)
      (hpacket : state.client.sq.packet
        (state.transmitted.length % 2 ^ BankClient.logSqRingDepth) = some (addr, byteCount)) :
      PipelineStep state .transmit
        { state with transmitted := state.transmitted ++ [state.client.memory addr] }
  | respond {state : Pipeline} {n : Nat} {message : ReqMsg} {resp : RespMsg}
      (draws : Nat → Draw) (stale : PerPart (BitVec 64))
      (hsent : state.transmitted[n]? = some message) (hopen : n ∉ state.answered)
      (hanswers : resp.Answers message) :
      PipelineStep state (.respond n resp draws stale)
        { state with
          client := state.client.processPacket draws stale resp
          answered := insert n state.answered }

/-- Runs start with the handling of the response to the ping. -/
def pipelineSystem : System Pipeline PipelineAction where
  start state := ∃ sqTxBuff sqNumber lkey sqRing memory draws stale,
    state = ⟨(BankClient.deviceInit sqTxBuff sqNumber lkey sqRing memory).pingPacket.processPacket
      draws stale .ping, [.ping], {0}⟩
  step := PipelineStep

/-! ## Requests in the send ring -/

namespace BankClient

/-- The send WQE of a posted request. -/
def PointsTo (base : BitVec 64) : List Posted → Nat → Option (BitVec 64 × BitVec 32) → Prop :=
  Logged fun n entry packet =>
    packet = some (sendBuf base logSqRingDepth logWqDataEntryBsize n,
      BitVec.ofNat 32 (14 + entry.message.size))

/-- The send buffer of a posted request. -/
def HoldsMessage : List Posted → Nat → ReqMsg → Prop :=
  Logged fun _ entry message => message = entry.message

/-- Every request that is posted and not yet sent is in its WQE and its buffer. -/
structure Queued (client : BankClient) (base : BitVec 64) (sent rung : Nat) : Prop where
  dt_at : client.dtCtx.At base logSqRingDepth (2 ^ logSqRingDepth + client.posted.length)
  sq_at : client.sq.At logSqRingDepth client.posted.length rung
  sqDb : client.sqDb = BitVec.ofNat 32 rung
  packets : Window client.sq.packet (2 ^ logSqRingDepth) (PointsTo base client.posted)
    sent client.posted.length
  messages : Window
    (fun cell => client.memory (sendBuf base logSqRingDepth logWqDataEntryBsize cell))
    (2 ^ logSqRingDepth) (HoldsMessage client.posted) sent client.posted.length

section Queued

variable {client : BankClient} {base : BitVec 64} {sent rung : Nat}

theorem getNextSendBuf_foldl {dtCtx : DtCtx} {taken : Nat}
    (hat : dtCtx.At base logSqRingDepth taken) (rounds : Nat) :
    ((List.range rounds).foldl (fun dtCtx _ => (dtCtx.getNextSendBuf logWqDataEntryBsize).2)
      dtCtx).At base logSqRingDepth (taken + rounds) := by
  induction rounds with
  | zero => exact hat
  | succ rounds ih =>
      rw [foldl_range_succ]
      exact ih.getNextSendBuf_snd _

/-- A request that is posted while the entry it takes is not waiting. -/
theorem Queued.enqueue (hqueued : client.Queued base sent rung)
    (hroom : client.posted.length < sent + 2 ^ logSqRingDepth) (entry : Posted) :
    (client.enqueue entry).Queued base sent rung := by
  have haddr : (client.dtCtx.getNextSendBuf logWqDataEntryBsize).1 =
      sendBuf base logSqRingDepth logWqDataEntryBsize client.posted.length := by
    rw [hqueued.dt_at.getNextSendBuf_fst (by decide), sendBuf, sendBuf, Nat.add_mod_left]
  have hposted : (client.enqueue entry).posted = client.posted ++ [entry] := rfl
  have hlength : (client.posted ++ [entry]).length = client.posted.length + 1 := by simp
  have hmemory : (client.enqueue entry).memory = Function.update client.memory
      (sendBuf base logSqRingDepth logWqDataEntryBsize client.posted.length) entry.message := by
    rw [← haddr]
    rfl
  refine ⟨?_, ?_, hqueued.sqDb, ?_, ?_⟩
  · rw [hposted, hlength]
    exact hqueued.dt_at.getNextSendBuf_snd logWqDataEntryBsize
  · rw [hposted, hlength]
    exact hqueued.sq_at.prepare _ _
  · rw [hposted, hlength]
    change Window (client.sq.prepareSendPacket
      (client.dtCtx.getNextSendBuf logWqDataEntryBsize).1 _).packet _ _ _ _
    rw [haddr, hqueued.sq_at.packet_prepare (by decide)]
    exact hqueued.packets.record hroom rfl
  · rw [hmemory, hposted, hlength]
    refine (hqueued.messages.record hroom rfl).congr ?_
    intro n
    have hinj := @sendBuf_inj base logSqRingDepth logWqDataEntryBsize (by decide) n
      client.posted.length
    rw [sendBuf_mod]
    by_cases hcell : n % 2 ^ logSqRingDepth = client.posted.length % 2 ^ logSqRingDepth
    · rw [hinj.mpr hcell, hcell, Function.update_self, Function.update_self]
    · rw [Function.update_of_ne (hinj.not.mpr hcell), Function.update_of_ne hcell, sendBuf_mod]

theorem Queued.ring (hqueued : client.Queued base sent rung) :
    client.ring.Queued base sent (rung + 1) :=
  ⟨hqueued.dt_at, hqueued.sq_at.finish.2, hqueued.sq_at.finish.1, hqueued.packets,
    hqueued.messages⟩

theorem Queued.ringBatch (hqueued : client.Queued base sent rung) (batchSize : Nat) :
    (client.ringBatch batchSize).Queued base sent (rung + batchSize) :=
  ⟨hqueued.dt_at, (hqueued.sq_at.finishBatch batchSize).2,
    (hqueued.sq_at.finishBatch batchSize).1, hqueued.packets, hqueued.messages⟩

theorem Queued.send (hqueued : client.Queued base sent rung) :
    client.Queued base (sent + 1) rung :=
  ⟨hqueued.dt_at, hqueued.sq_at, hqueued.sqDb, hqueued.packets.mono (Nat.le_succ sent) le_rfl,
    hqueued.messages.mono (Nat.le_succ sent) le_rfl⟩

theorem Queued.reply (hqueued : client.Queued base sent rung)
    (hroom : client.posted.length < sent + 2 ^ logSqRingDepth) (slot : Nat) (trans : Transition)
    (cause : RespMsg) (message : ReqMsg) :
    (client.reply slot trans cause message).Queued base sent (rung + 1) := by
  have hstored : { client with
      transitions := Function.update client.transitions slot trans }.Queued base sent rung :=
    ⟨hqueued.dt_at, hqueued.sq_at, hqueued.sqDb, hqueued.packets, hqueued.messages⟩
  exact (hstored.enqueue hroom _).ring

/-- The next request to be sent is still in its WQE and its buffer. -/
theorem Queued.next (hqueued : client.Queued base sent rung) {n : Nat} (hsent : sent ≤ n)
    (hlt : n < client.posted.length) :
    ∃ entry addr, client.posted[n]? = some entry ∧
      client.sq.packet (n % 2 ^ logSqRingDepth) =
        some (addr, BitVec.ofNat 32 (14 + entry.message.size)) ∧
      client.memory addr = entry.message := by
  obtain ⟨entry, hentry, hpacket⟩ := hqueued.packets n hsent hlt
  obtain ⟨entry', hentry', hmessage⟩ := hqueued.messages n hsent hlt
  obtain rfl : entry = entry' := Option.some.inj (hentry.symm.trans hentry')
  refine ⟨entry, _, hentry, hpacket, ?_⟩
  simpa only [sendBuf_mod] using hmessage

end Queued

/-! ## Starting all slots -/

/-- The first request of a slot. -/
def loaded (client : BankClient) (index : Nat) : Posted :=
  ⟨some index, some .ping, .getData (reloadTransition (client.transitions index))⟩

/-- The client with the transactions of the first slots set up. -/
def withSlots (draws : Nat → Draw) (client : BankClient) (rounds : Nat) : BankClient :=
  { client with
    transitions := fun index => if index < rounds then
      initTransition (client.transitions index) index (draws index)
      else client.transitions index }

theorem foldl_startSlot (draws : Nat → Draw) (client : BankClient) (rounds : Nat) :
    (List.range rounds).foldl (startSlot draws) client = client.withSlots draws rounds := by
  induction rounds with
  | zero => rfl
  | succ rounds ih =>
      rw [foldl_range_succ, ih]
      simp only [startSlot, withSlots, BankClient.mk.injEq,
        and_true]
      funext index
      by_cases hindex : index = rounds
      · subst index
        simp
      · have hiff : index < rounds + 1 ↔ index < rounds := by omega
        simp [hindex, hiff]

theorem foldl_loadSlot (client : BankClient) (rounds : Nat) :
    ((List.range rounds).foldl loadSlot client).transitions = client.transitions ∧
      ((List.range rounds).foldl loadSlot client).posted =
        client.posted ++ (List.range rounds).map client.loaded := by
  induction rounds with
  | zero => simp
  | succ rounds ih =>
      rw [foldl_range_succ, List.range_succ]
      refine ⟨ih.1, ?_⟩
      change ((List.range rounds).foldl loadSlot client).posted ++
        [((List.range rounds).foldl loadSlot client).loaded rounds] = _
      rw [ih.2, loaded, ih.1, List.map_append, List.append_assoc]
      rfl

theorem Queued.foldl_loadSlot {client : BankClient} {base : BitVec 64} {sent rung : Nat}
    (hqueued : client.Queued base sent rung) {rounds : Nat}
    (hroom : client.posted.length + rounds ≤ sent + 2 ^ logSqRingDepth) :
    ((List.range rounds).foldl loadSlot client).Queued base sent rung := by
  induction rounds with
  | zero => exact hqueued
  | succ rounds ih =>
      have hlength := congrArg List.length (BankClient.foldl_loadSlot client rounds).2
      rw [List.length_append, List.length_map, List.length_range] at hlength
      rw [foldl_range_succ]
      exact (ih (by omega)).enqueue (by omega) _

/-- After the ping and its response: the first request of every slot is posted. -/
structure Started (client : BankClient) (base : BitVec 64) : Prop where
  queued : client.Queued base 1 client.posted.length
  posted : client.posted = ⟨none, none, .ping⟩ :: (List.range concurrency).map client.loaded
  awaits : ∀ slot, slot < concurrency →
    (client.transitions slot).Awaits slot (client.loaded slot).message

/-- A full batch: the first request of every slot behind the ping. -/
theorem loaded_started {client full : BankClient} {base : BitVec 64}
    (hposted : client.posted = [⟨none, none, .ping⟩])
    (hawaits : ∀ slot, slot < concurrency →
      (client.transitions slot).Awaits slot (client.loaded slot).message)
    (hqueued : full.Queued base 1 1) (htransitions : full.transitions = client.transitions)
    (hloaded : full.posted = client.posted ++ (List.range concurrency).map client.loaded) :
    (full.ringBatch concurrency).Started base := by
  have hsame : full.loaded = client.loaded := by
    funext index
    rw [loaded, htransitions, loaded]
  have hall : full.posted = ⟨none, none, .ping⟩ :: (List.range concurrency).map full.loaded := by
    rw [hsame, hloaded, hposted, List.singleton_append]
  refine ⟨?_, hall, ?_⟩
  · have hlength : full.posted.length = 1 + concurrency := by
      rw [hall, List.length_cons, List.length_map, List.length_range, Nat.add_comm]
    change (full.ringBatch concurrency).Queued base 1 full.posted.length
    rw [hlength]
    exact hqueued.ringBatch concurrency
  · intro slot hslot
    change (full.transitions slot).Awaits slot (full.loaded slot).message
    rw [hsame, htransitions]
    exact hawaits slot hslot

theorem processPing_started {client : BankClient} {base : BitVec 64}
    (hqueued : client.Queued base 1 1) (hposted : client.posted = [⟨none, none, .ping⟩])
    (hzero : ∀ index, (client.transitions index).changed = .fill 0) (draws : Nat → Draw) :
    (client.processPing draws).Started base := by
  have hfresh : (client.withSlots draws concurrency).Queued base 1 1 :=
    ⟨hqueued.dt_at, hqueued.sq_at, hqueued.sqDb, hqueued.packets, hqueued.messages⟩
  have hping : (client.withSlots draws concurrency).posted = [⟨none, none, .ping⟩] := hposted
  have hawaits : ∀ slot, slot < concurrency →
      ((client.withSlots draws concurrency).transitions slot).Awaits slot
        ((client.withSlots draws concurrency).loaded slot).message := by
    intro slot hslot
    have htrans : (client.withSlots draws concurrency).transitions slot =
        initTransition (client.transitions slot) slot (draws slot) := if_pos hslot
    rw [loaded, htrans]
    exact initTransition_awaits (draws slot) (hzero slot) hslot
  obtain ⟨htransitions, hloaded⟩ := foldl_loadSlot (client.withSlots draws concurrency) concurrency
  rw [processPing, foldl_startSlot]
  refine loaded_started hping hawaits (hfresh.foldl_loadSlot ?_) htransitions hloaded
  rw [hping]
  decide

/-- The ping takes the first entry of the ring and the first buffer. -/
theorem pingPacket_queued (sqTxBuff : BitVec 64) (sqNumber lkey : BitVec 32)
    (sqRing : Nat → SqeSeg (BitVec 64)) (memory : BitVec 64 → ReqMsg) :
    (deviceInit sqTxBuff sqNumber lkey sqRing memory).pingPacket.Queued sqTxBuff 1 1 := by
  have htaken := @getNextSendBuf_foldl sqTxBuff ⟨sqTxBuff, 0, ringMask logSqRingDepth⟩ 0
    ⟨rfl, rfl, rfl⟩ (2 ^ logSqRingDepth)
  rw [Nat.zero_add] at htaken
  have hinit : { deviceInit sqTxBuff sqNumber lkey sqRing memory with
      dtCtx := (List.range (2 ^ logSqRingDepth)).foldl
        (fun dtCtx _ => (dtCtx.getNextSendBuf logWqDataEntryBsize).2)
        ⟨sqTxBuff, 0, ringMask logSqRingDepth⟩ }.Queued sqTxBuff 0 0 :=
    ⟨htaken, SendQueue.initSendSq_at _ _ _ _ _, rfl, Window.empty _ _ _ _,
      Window.empty _ _ _ _⟩
  exact (hinit.enqueue (show (0 : Nat) < 0 + 2 ^ logSqRingDepth by decide) _).ring.send

/-- The requests of a slot, in the order in which they were posted. -/
def history (client : BankClient) (slot : Nat) : List Posted :=
  client.posted.filter fun entry => entry.slot = some slot

end BankClient

/-! ## One outstanding request for each slot -/

/-- A slot's requests start with a GET_DATA and follow the order of a transaction. -/
structure Sequenced (requests : List Posted) : Prop where
  first : ∃ entry req, requests.head? = some entry ∧ entry.message = .getData req
  chain : requests.IsChain Follows

/-- The NIC reads what was posted, in order; only what it has sent is answered. -/
structure Pipeline.Sending (state : Pipeline) (base : BitVec 64) : Prop where
  queued : state.client.Queued base state.transmitted.length state.client.posted.length
  transmitted_le : state.transmitted.length ≤ state.client.posted.length
  transmitted_eq : state.transmitted =
    (state.client.posted.map Posted.message).take state.transmitted.length
  answered_lt : ∀ n ∈ state.answered, n < state.transmitted.length

/-- Every slot has one outstanding request, the one its transaction awaits, and
no other request is outstanding. -/
structure Pipeline.Slots (state : Pipeline) (latest : Nat → Nat) : Prop where
  awaits : ∀ slot, slot < concurrency → ∃ entry,
    state.client.posted[latest slot]? = some entry ∧ entry.slot = some slot ∧
      (state.client.transitions slot).Awaits slot entry.message
  outstanding : ∀ n, n < state.client.posted.length → n ∉ state.answered →
    ∃ slot, slot < concurrency ∧ n = latest slot
  unanswered : ∀ slot, slot < concurrency → latest slot ∉ state.answered

/-- The requests of a slot are in order, and its last one is outstanding. -/
structure Pipeline.Histories (state : Pipeline) (latest : Nat → Nat) : Prop where
  sequenced : ∀ slot, slot < concurrency → Sequenced (state.client.history slot)
  last : ∀ slot, slot < concurrency →
    (state.client.history slot).getLast? = state.client.posted[latest slot]?

structure Pipeline.Running (state : Pipeline) (base : BitVec 64) (latest : Nat → Nat) : Prop
  extends state.Sending base, state.Slots latest, state.Histories latest

theorem filter_range_eq {slot : Nat} (hslot : slot < concurrency) :
    (List.range concurrency).filter (· = slot) = [slot] := by
  rw [List.filter_eq, List.count_eq_one_of_mem List.nodup_range (List.mem_range.mpr hslot)]
  rfl

theorem BankClient.Started.history_eq {client : BankClient} {base : BitVec 64}
    (hstarted : client.Started base) {slot : Nat} (hslot : slot < concurrency) :
    client.history slot = [client.loaded slot] := by
  rw [BankClient.history, hstarted.posted, List.filter_cons_of_neg (by simp), List.filter_map]
  have hsame : ((fun entry => decide (entry.slot = some slot)) ∘ client.loaded) =
      fun index => decide (index = slot) := by
    funext index
    simp [BankClient.loaded]
  rw [hsame, filter_range_eq hslot]
  rfl

theorem BankClient.Started.running {client : BankClient} {base : BitVec 64}
    (hstarted : client.Started base) :
    Pipeline.Running ⟨client, [.ping], {0}⟩ base (· + 1) := by
  have hloaded : ∀ slot, slot < concurrency →
      client.posted[slot + 1]? = some (client.loaded slot) := by
    intro slot hslot
    rw [hstarted.posted]
    simp [hslot]
  refine ⟨⟨hstarted.queued, ?_, ?_, ?_⟩, ⟨?_, ?_, ?_⟩, ?_, ?_⟩
  · rw [hstarted.posted]
    simp
  · change _ = (client.posted.map Posted.message).take 1
    rw [hstarted.posted]
    rfl
  · simp
  · intro slot hslot
    exact ⟨_, hloaded slot hslot, rfl, hstarted.awaits slot hslot⟩
  · intro n hlt hopen
    have hlength : client.posted.length = concurrency + 1 := by
      rw [hstarted.posted]
      simp
    rw [Finset.mem_singleton] at hopen
    have hlt' : n < client.posted.length := hlt
    exact ⟨n - 1, by omega, by omega⟩
  · simp
  · intro slot hslot
    rw [hstarted.history_eq hslot]
    exact ⟨⟨_, _, rfl, rfl⟩, List.IsChain.singleton _⟩
  · intro slot hslot
    rw [hstarted.history_eq hslot, hloaded slot hslot]
    rfl

section Steps

variable {state : Pipeline} {base : BitVec 64} {latest : Nat → Nat}

/-- What waits for transmission is outstanding, so there is at most one for each
slot. -/
theorem Pipeline.Running.unsent_le (hrunning : state.Running base latest) :
    state.client.posted.length ≤ state.transmitted.length + concurrency := by
  have hsubset : Finset.Ico state.transmitted.length state.client.posted.length ⊆
      (Finset.range concurrency).image latest := by
    intro n hmem
    rw [Finset.mem_Ico] at hmem
    have hopen : n ∉ state.answered := fun hanswered => by
      have hlt := hrunning.answered_lt n hanswered
      omega
    obtain ⟨slot, hslot, rfl⟩ := hrunning.outstanding n hmem.2 hopen
    exact Finset.mem_image_of_mem latest (Finset.mem_range.mpr hslot)
  have hcard := (Finset.card_le_card hsubset).trans Finset.card_image_le
  rw [Nat.card_Ico, Finset.card_range] at hcard
  omega

theorem Pipeline.Running.transmit (hrunning : state.Running base latest) {addr : BitVec 64}
    {byteCount : BitVec 32}
    (hrung : BitVec.ofNat 32 state.transmitted.length ≠ state.client.sqDb)
    (hpacket : state.client.sq.packet
      (state.transmitted.length % 2 ^ BankClient.logSqRingDepth) = some (addr, byteCount)) :
    Pipeline.Running
      { state with transmitted := state.transmitted ++ [state.client.memory addr] }
      base latest := by
  have hlt : state.transmitted.length < state.client.posted.length := by
    -- The doorbell was rung for all that is posted, and the NIC is not there yet.
    apply hrunning.transmitted_le.lt_of_ne
    intro heq
    exact hrung (by rw [hrunning.queued.sqDb, heq])
  obtain ⟨entry, addr', hentry, hpacket', hmessage⟩ := hrunning.queued.next le_rfl hlt
  obtain ⟨rfl, -⟩ : addr = addr' ∧ _ := by simpa using hpacket.symm.trans hpacket'
  have hlength : (state.transmitted ++ [state.client.memory addr]).length =
      state.transmitted.length + 1 := by simp
  refine ⟨⟨?_, ?_, ?_, ?_⟩, ⟨hrunning.awaits, hrunning.outstanding, hrunning.unanswered⟩,
    hrunning.sequenced, hrunning.last⟩
  · change state.client.Queued base (state.transmitted ++ _).length _
    rw [hlength]
    exact hrunning.queued.send
  · change (state.transmitted ++ _).length ≤ _
    rw [hlength]
    exact hlt
  · change _ = (state.client.posted.map Posted.message).take (state.transmitted ++ _).length
    rw [hlength, List.take_add_one, ← hrunning.transmitted_eq, List.getElem?_map, hentry, hmessage]
    rfl
  · intro n hanswered
    change n < (state.transmitted ++ _).length
    rw [hlength]
    exact (hrunning.answered_lt n hanswered).trans (Nat.lt_succ_self _)

/-- The request that the server saw is the one that was posted. -/
theorem Pipeline.Running.posted_of_transmitted (hrunning : state.Running base latest) {n : Nat}
    {message : ReqMsg} (hsent : state.transmitted[n]? = some message) :
    ∃ entry, state.client.posted[n]? = some entry ∧ entry.message = message := by
  have hlt := (List.getElem?_eq_some_iff.mp hsent).1
  rw [hrunning.transmitted_eq, List.getElem?_take_of_lt hlt, List.getElem?_map,
    Option.map_eq_some_iff] at hsent
  exact hsent

theorem BankClient.history_reply (client : BankClient) (slot other : Nat) (trans : Transition)
    (resp : RespMsg) (message : ReqMsg) :
    (client.reply slot trans resp message).history other =
      client.history other ++ if slot = other then [⟨some slot, some resp, message⟩] else [] := by
  change (client.posted ++ [_]).filter _ = _
  rw [List.filter_append, BankClient.history, List.filter_singleton]
  simp

theorem Pipeline.Slots.latest_lt (hslots : state.Slots latest) {slot : Nat}
    (hslot : slot < concurrency) : latest slot < state.client.posted.length := by
  obtain ⟨entry, hentry, -, -⟩ := hslots.awaits slot hslot
  exact (List.getElem?_eq_some_iff.mp hentry).1

/-- Two slots have different outstanding requests. -/
theorem Pipeline.Slots.latest_inj (hslots : state.Slots latest) {slot other : Nat}
    (hslot : slot < concurrency) (hother : other < concurrency)
    (heq : latest slot = latest other) : slot = other := by
  obtain ⟨entry, hentry, hentrySlot, -⟩ := hslots.awaits slot hslot
  obtain ⟨entry', hentry', hentrySlot', -⟩ := hslots.awaits other hother
  obtain rfl : entry = entry' := by simpa [heq, hentry'] using hentry.symm
  simpa [hentrySlot] using hentrySlot'

/-- After a reply the latest request of its slot is the new one. -/
theorem Pipeline.Slots.getElem?_latest (hslots : state.Slots latest) (slot : Nat) {other : Nat}
    (hother : other < concurrency) (entry : Posted) :
    (state.client.posted ++ [entry])[
        Function.update latest slot state.client.posted.length other]? =
      if slot = other then some entry else state.client.posted[latest other]? := by
  by_cases heq : slot = other
  · subst other
    simp
  · rw [if_neg heq, Function.update_of_ne (Ne.symm heq),
      List.getElem?_append_left (hslots.latest_lt hother)]

section Reply

variable {slot : Nat} {earlier : Posted} {trans : Transition} {resp : RespMsg} {message : ReqMsg}

theorem Pipeline.Running.reply_sending (hrunning : state.Running base latest)
    (hsent : latest slot < state.transmitted.length) :
    Pipeline.Sending
      { state with
        client := state.client.reply slot trans resp message
        answered := insert (latest slot) state.answered } base := by
  have hposted : (state.client.reply slot trans resp message).posted =
      state.client.posted ++ [⟨some slot, some resp, message⟩] := rfl
  have hroom : state.client.posted.length <
      state.transmitted.length + 2 ^ BankClient.logSqRingDepth :=
    hrunning.unsent_le.trans_lt (by simp [concurrency, BankClient.logSqRingDepth])
  refine ⟨?_, ?_, ?_, ?_⟩ <;> dsimp only
  · rw [hposted, List.length_append, List.length_singleton]
    exact hrunning.queued.reply hroom slot trans resp message
  · rw [hposted, List.length_append]
    exact hrunning.transmitted_le.trans (Nat.le_add_right _ _)
  · rw [hposted, List.map_append, List.take_append_of_le_length
      (by simpa using hrunning.transmitted_le)]
    exact hrunning.transmitted_eq
  · intro n hmem
    rcases Finset.mem_insert.mp hmem with rfl | hmem
    · exact hsent
    · exact hrunning.answered_lt n hmem

/-- The answered slot gets a new outstanding request; the others keep theirs. -/
theorem Pipeline.Running.reply_slots (hrunning : state.Running base latest)
    (hslot : slot < concurrency) (hawaits : trans.Awaits slot message) :
    Pipeline.Slots
      { state with
        client := state.client.reply slot trans resp message
        answered := insert (latest slot) state.answered }
      (Function.update latest slot state.client.posted.length) := by
  have hposted : (state.client.reply slot trans resp message).posted =
      state.client.posted ++ [⟨some slot, some resp, message⟩] := rfl
  have htransitions : (state.client.reply slot trans resp message).transitions =
      Function.update state.client.transitions slot trans := rfl
  refine ⟨?_, ?_, ?_⟩ <;> dsimp only
  · intro other hother
    rw [hposted, hrunning.getElem?_latest slot hother, htransitions]
    by_cases heq : slot = other
    · subst other
      rw [if_pos rfl, Function.update_self]
      exact ⟨_, rfl, rfl, hawaits⟩
    · rw [if_neg heq, Function.update_of_ne (Ne.symm heq)]
      exact hrunning.awaits other hother
  · intro n hlt hopen
    rw [hposted, List.length_append, List.length_singleton] at hlt
    rw [Finset.mem_insert, not_or] at hopen
    rcases Nat.lt_succ_iff_lt_or_eq.mp hlt with hbefore | rfl
    · obtain ⟨other, hother, rfl⟩ := hrunning.outstanding n hbefore hopen.2
      have hne : other ≠ slot := fun heq => hopen.1 (congrArg latest heq)
      exact ⟨other, hother, (Function.update_of_ne hne _ _).symm⟩
    · exact ⟨slot, hslot, (Function.update_self slot _ latest).symm⟩
  · intro other hother
    rw [Finset.mem_insert, not_or]
    by_cases heq : slot = other
    · -- The new request is behind all that was sent, so nothing has answered it.
      subst other
      rw [Function.update_self]
      refine ⟨(hrunning.latest_lt hslot).ne', fun hmem => ?_⟩
      have hlt := hrunning.answered_lt _ hmem
      have hle := hrunning.transmitted_le
      omega
    · rw [Function.update_of_ne (Ne.symm heq)]
      exact ⟨fun hsame => heq (hrunning.latest_inj hother hslot hsame).symm,
        hrunning.unanswered other hother⟩

theorem Pipeline.Running.reply_histories (hrunning : state.Running base latest)
    (hslot : slot < concurrency)
    (hearlier : state.client.posted[latest slot]? = some earlier)
    (hfollows : Follows earlier ⟨some slot, some resp, message⟩) :
    Pipeline.Histories
      { state with
        client := state.client.reply slot trans resp message
        answered := insert (latest slot) state.answered }
      (Function.update latest slot state.client.posted.length) := by
  have hposted : (state.client.reply slot trans resp message).posted =
      state.client.posted ++ [⟨some slot, some resp, message⟩] := rfl
  refine ⟨?_, ?_⟩ <;> dsimp only
  · intro other hother
    obtain ⟨⟨entry, req, hhead, hmessage⟩, hchain⟩ := hrunning.sequenced other hother
    rw [BankClient.history_reply]
    refine ⟨⟨entry, req, by simp [List.head?_append, hhead], hmessage⟩, ?_⟩
    by_cases heq : slot = other
    · subst other
      rw [if_pos rfl, List.isChain_append]
      refine ⟨hchain, List.IsChain.singleton _, ?_⟩
      intro previous hprevious next hnext
      rw [hrunning.last slot hslot, hearlier] at hprevious
      cases hprevious
      cases hnext
      exact hfollows
    · rwa [if_neg heq, List.append_nil]
  · intro other hother
    rw [BankClient.history_reply, hposted, hrunning.getElem?_latest slot hother]
    by_cases heq : slot = other
    · subst other
      simp
    · rw [if_neg heq, if_neg heq, List.append_nil]
      exact hrunning.last other hother

end Reply

theorem PipelineStep.running {next : Pipeline} {action : PipelineAction}
    (hstep : PipelineStep state action next) (hrunning : state.Running base latest) :
    ∃ latest', next.Running base latest' := by
  cases hstep with
  | transmit hrung hpacket =>
      exact ⟨latest, hrunning.transmit hrung hpacket⟩
  | @respond n message resp draws stale hsent hopen hanswers =>
      -- Answers come in any order; the one taken here belongs to some slot's latest.
      have hlt := (List.getElem?_eq_some_iff.mp hsent).1
      obtain ⟨earlier, hearlier, rfl⟩ := hrunning.posted_of_transmitted hsent
      obtain ⟨slot, hslot, rfl⟩ :=
        hrunning.outstanding n (hlt.trans_le hrunning.transmitted_le) hopen
      obtain ⟨entry, hentry, -, hawaits⟩ := hrunning.awaits slot hslot
      obtain rfl : entry = earlier := Option.some.inj (hentry.symm.trans hearlier)
      obtain ⟨trans, message, hreply, hfollows, hnext⟩ :=
        BankClient.processPacket_reply hawaits hanswers draws stale
      rw [hreply]
      exact ⟨_, hrunning.reply_sending hlt, hrunning.reply_slots hslot hnext,
        hrunning.reply_histories hslot hearlier hfollows⟩

theorem pipelineSystem_running (hreach : pipelineSystem.Reachable state) :
    ∃ base latest, state.Running base latest := by
  apply hreach.invariant
  · intro state hstart
    obtain ⟨sqTxBuff, sqNumber, lkey, sqRing, memory, draws, stale, rfl⟩ := hstart
    have hqueued := BankClient.pingPacket_queued sqTxBuff sqNumber lkey sqRing memory
    exact ⟨sqTxBuff, _,
      (BankClient.processPing_started hqueued rfl (fun _ => rfl) draws).running⟩
  · intro state action next _ hinv hstep
    obtain ⟨base, latest, hrunning⟩ := hinv
    obtain ⟨latest', hrunning'⟩ := PipelineStep.running hstep hrunning
    exact ⟨base, latest', hrunning'⟩

end Steps

/-! ## The pipeline's discipline -/

/-- A request of a slot that is posted and not answered. -/
def Pipeline.Outstanding (state : Pipeline) (slot n : Nat) : Prop :=
  ∃ entry, state.client.posted[n]? = some entry ∧ entry.slot = some slot ∧ n ∉ state.answered

structure Pipeline.Disciplined (state : Pipeline) : Prop where
  /-- Each slot has exactly one outstanding request; there are no others. -/
  one_each : ∀ slot, slot < concurrency → ∃ n, state.Outstanding slot n ∧
    ∀ m, state.Outstanding slot m → m = n
  no_other : ∀ n, n < state.client.posted.length → n ∉ state.answered →
    ∃ slot, slot < concurrency ∧ state.Outstanding slot n
  /-- It carries the number of the slot's transaction, which names the slot. -/
  numbered : ∀ slot n entry, state.Outstanding slot n →
    state.client.posted[n]? = some entry →
    entry.message.reqNumber = some (state.client.transitions slot).reqId ∧
      (state.client.transitions slot).reqId.toNat % concurrency = slot
  sequenced : ∀ slot, slot < concurrency → Sequenced (state.client.history slot)
  /-- The NIC has sent the posted requests from the first on, as they were posted. -/
  transmitted_eq : state.transmitted =
    (state.client.posted.map Posted.message).take state.transmitted.length
  /-- The others are in their WQEs and buffers, and the next entry to be written
  is not one of theirs. -/
  unsent_intact : ∀ n, state.transmitted.length ≤ n → n < state.client.posted.length →
    ∃ entry addr, state.client.posted[n]? = some entry ∧
      state.client.sq.packet (n % 2 ^ BankClient.logSqRingDepth) =
        some (addr, BitVec.ofNat 32 (14 + entry.message.size)) ∧
      state.client.memory addr = entry.message
  next_free : state.client.posted.length <
    state.transmitted.length + 2 ^ BankClient.logSqRingDepth

/-- An outstanding request is the latest of its slot. -/
theorem Pipeline.Slots.outstanding_iff {state : Pipeline} {latest : Nat → Nat}
    (hslots : state.Slots latest) {slot n : Nat} :
    state.Outstanding slot n ↔ slot < concurrency ∧ n = latest slot := by
  constructor
  · intro houtstanding
    obtain ⟨entry, hentry, hentrySlot, hopen⟩ := houtstanding
    obtain ⟨other, hother, rfl⟩ :=
      hslots.outstanding n (List.getElem?_eq_some_iff.mp hentry).1 hopen
    obtain ⟨entry', hentry', hentrySlot', -⟩ := hslots.awaits other hother
    obtain rfl : entry = entry' := Option.some.inj (hentry.symm.trans hentry')
    obtain rfl : slot = other := by simpa [hentrySlot] using hentrySlot'
    exact ⟨hother, rfl⟩
  · intro hlatest
    obtain ⟨hslot, rfl⟩ := hlatest
    obtain ⟨entry, hentry, hentrySlot, -⟩ := hslots.awaits slot hslot
    exact ⟨entry, hentry, hentrySlot, hslots.unanswered slot hslot⟩

/-- In every run from the handling of the ping's response on, of any length and
with the responses in any order. -/
theorem pipeline_disciplined {state : Pipeline} (hreach : pipelineSystem.Reachable state) :
    state.Disciplined := by
  obtain ⟨base, latest, hrunning⟩ := pipelineSystem_running hreach
  have hiff : ∀ slot n, state.Outstanding slot n ↔ slot < concurrency ∧ n = latest slot :=
    fun _ _ => hrunning.outstanding_iff
  refine ⟨?_, ?_, ?_, hrunning.sequenced, hrunning.transmitted_eq, ?_, ?_⟩
  · intro slot hslot
    exact ⟨latest slot, (hiff _ _).mpr ⟨hslot, rfl⟩, fun m hm => ((hiff _ _).mp hm).2⟩
  · intro n hlt hopen
    obtain ⟨slot, hslot, rfl⟩ := hrunning.outstanding n hlt hopen
    exact ⟨slot, hslot, (hiff _ _).mpr ⟨hslot, rfl⟩⟩
  · intro slot n entry houtstanding hentry
    obtain ⟨hslot, rfl⟩ := (hiff _ _).mp houtstanding
    obtain ⟨entry', hentry', -, hawaits⟩ := hrunning.awaits slot hslot
    obtain rfl : entry = entry' := Option.some.inj (hentry.symm.trans hentry')
    exact ⟨hawaits.reqNumber, hawaits.congruent⟩
  · intro n hsent hlt
    exact hrunning.queued.next hsent hlt
  · exact hrunning.unsent_le.trans_lt (by simp [concurrency, BankClient.logSqRingDepth])

/-- From any start, the first slot's GET_DATA may be sent and answered. -/
theorem BankClient.Started.getLock_reachable {client : BankClient} {base : BitVec 64}
    (hstarted : client.Started base)
    (hstart : pipelineSystem.Reachable ⟨client, [.ping], {0}⟩) :
    ∃ state, pipelineSystem.Reachable state ∧ ∃ entry req,
      (state.client.history 0).getLast? = some entry ∧ entry.message = .getLock req := by
  have hlength : client.posted.length = 65 := by
    rw [hstarted.posted]
    simp [concurrency]
  have hloaded : client.posted[1]? = some (client.loaded 0) := by
    rw [hstarted.posted]
    simp [concurrency]
  obtain ⟨entry, addr, hentry, hpacket, hmessage⟩ :=
    hstarted.queued.next le_rfl (hlength ▸ by decide)
  obtain rfl : entry = client.loaded 0 := by simpa [hloaded] using hentry.symm
  have hrung : BitVec.ofNat 32 1 ≠ client.sqDb := by
    rw [hstarted.queued.sqDb, hlength]
    decide
  have hsent := hstart.step (PipelineStep.transmit hrung hpacket)
  let resp : RespMsg := .getData ⟨(client.transitions 0).reqId, 0, .fill 0⟩
  have hanswers : resp.Answers (client.loaded 0).message := rfl
  have hanswered := hsent.step (PipelineStep.respond (n := 1) (fun _ => ⟨0, 0⟩) (.fill 0)
    (congrArg some hmessage) (by simp) hanswers)
  obtain ⟨trans, message, hreply, ⟨_, hcause, -, hfollows⟩, -⟩ :=
    processPacket_reply (hstarted.awaits 0 (by decide)) hanswers (fun _ => ⟨0, 0⟩) (.fill 0)
  rw [hreply] at hanswered
  obtain ⟨req, rfl⟩ := hfollows
  refine ⟨_, hanswered, ⟨some 0, some resp, .getLock req⟩, req, ?_, rfl⟩
  rw [history_reply, if_pos rfl, List.getLast?_concat]

/-- With the first slot's GET_LOCK outstanding. -/
theorem pipeline_disciplined_getLock :
    ∃ state, pipelineSystem.Reachable state ∧ state.Disciplined ∧ ∃ entry req,
      (state.client.history 0).getLast? = some entry ∧ entry.message = .getLock req := by
  have hqueued := BankClient.pingPacket_queued 0 0 0 (fun _ => .blank) (fun _ => .ping)
  have hstarted := BankClient.processPing_started hqueued rfl (fun _ => rfl) fun _ => ⟨0, 0⟩
  obtain ⟨state, hreach, hlast⟩ := hstarted.getLock_reachable
    (.start ⟨0, 0, 0, fun _ => .blank, fun _ => .ping, fun _ => ⟨0, 0⟩, .fill 0, rfl⟩)
  exact ⟨state, hreach, pipeline_disciplined hreach, hlast⟩

end BenchBF3.Dpa
