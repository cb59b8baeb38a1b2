import BenchBF3.Channel.FlowControl
import BenchBF3.Foundation.Ring

/-! # Where the descriptors point

`send_dma_reqs` walks the batch buffer with a running offset, which it resets
after the first batch and whenever the number of descriptors is a multiple of the
batch size. The offset is therefore a function of that number, which is kept in 64
bits. `receive_dma_reqs` exchanges its two buffers for a read, as the sender
exchanges the two offsets, so each range lies in the buffer it was made for.
Descriptors in flight are within one batch of each other, so their ranges of the
batch buffer are disjoint unless their numbers are on both sides of a wrap.
-/

namespace BenchBF3.Channel

open Foundation

/-! ## The ranges of a descriptor -/

/-- The buffer that `handle_dma_import` allocates, and the memory it imports. -/
inductive DmaMemory
  | batch
  | exported
  deriving DecidableEq, Repr

structure DmaRange where
  memory : DmaMemory
  offset : BitVec 64
  length : BitVec 64
  deriving DecidableEq, Repr

def DmaMemory.size (config : ChannelConfig) : DmaMemory → Nat
  | .batch => config.batchSize.toNat * config.payload.toNat
  | .exported => config.mmapLength.toNat

def DmaRange.Inside (config : ChannelConfig) (range : DmaRange) : Prop :=
  range.offset.toNat + range.length.toNat ≤ range.memory.size config

/-- The two ranges have a byte in common. -/
def DmaRange.Overlaps (first second : DmaRange) : Prop :=
  first.memory = second.memory ∧
    first.offset.toNat < second.offset.toNat + second.length.toNat ∧
    second.offset.toNat < first.offset.toNat + first.length.toNat

/-- The data of the source buffer, once the buffers are swapped for a read. -/
def DmaDescriptor.src (config : ChannelConfig) (descriptor : DmaDescriptor) : DmaRange where
  memory := if config.isRead then .exported else .batch
  offset := descriptor.localOffset
  length := descriptor.localPayload

/-- The destination is given without a length; the copy writes what it reads. -/
def DmaDescriptor.dst (config : ChannelConfig) (descriptor : DmaDescriptor) : DmaRange where
  memory := if config.isRead then .batch else .exported
  offset := descriptor.remoteOffset
  length := descriptor.localPayload

/-- Which of the two ranges is that of the batch buffer. -/
def DmaDescriptor.batchRange (config : ChannelConfig) (descriptor : DmaDescriptor) : DmaRange :=
  if (descriptor.src config).memory = .batch then descriptor.src config
  else descriptor.dst config

/-- What a descriptor of some number should be: in its place of the batch buffer,
with both ranges inside their buffers. -/
structure ChannelConfig.PlacedAt (config : ChannelConfig) (number : Nat)
    (descriptor : DmaDescriptor) : Prop where
  memory : (descriptor.batchRange config).memory = .batch
  offset : (descriptor.batchRange config).offset.toNat =
    number % 2 ^ 64 % config.batchSize.toNat * config.payload.toNat
  length : (descriptor.batchRange config).length = config.payload
  src : (descriptor.src config).Inside config
  dst : (descriptor.dst config).Inside config

/-- The conditions under which the benchmark is run. -/
structure ChannelConfig.Usable (config : ChannelConfig) : Prop where
  batchSize : 1 ≤ config.batchSize.toNat
  payload : 1 ≤ config.payload.toNat
  buffer : config.batchSize.toNat * config.payload.toNat < 2 ^ 32
  mmapLength : config.payload.toNat < config.mmapLength.toNat

section Usable

variable {config : ChannelConfig}

theorem ChannelConfig.Usable.batchSize_lt (husable : config.Usable) :
    config.batchSize.toNat < 2 ^ 32 :=
  (Nat.le_mul_of_pos_right _ husable.payload).trans_lt husable.buffer

/-- A slot of the batch buffer ends inside it. -/
theorem ChannelConfig.slot_le {slot : Nat} (hslot : slot < config.batchSize.toNat) :
    slot * config.payload.toNat + config.payload.toNat ≤
      config.batchSize.toNat * config.payload.toNat := by
  rw [← Nat.succ_mul]
  exact Nat.mul_le_mul_right _ hslot

theorem ChannelConfig.Usable.randOffset_le (husable : config.Usable) (rand : BitVec 64) :
    (rand % (config.mmapLength - config.payload)).toNat + config.payload.toNat ≤
      config.mmapLength.toNat := by
  have hlt := husable.mmapLength
  have hroom : (config.mmapLength - config.payload).toNat =
      config.mmapLength.toNat - config.payload.toNat :=
    BitVec.toNat_sub_of_le hlt.le
  have hmod := Nat.mod_lt rand.toNat (y := config.mmapLength.toNat - config.payload.toNat)
    (by omega)
  rw [BitVec.toNat_umod, hroom]
  omega

/-- The descriptor for the place of its number, for any random value. -/
theorem ChannelConfig.Usable.descriptor_placedAt (husable : config.Usable) {number : Nat}
    {start : BitVec 64} (hstart : start.toNat =
      number % 2 ^ 64 % config.batchSize.toNat * config.payload.toNat) (rand : BitVec 64) :
    config.PlacedAt number (config.descriptor start rand) := by
  have hrand := husable.randOffset_le (roundUp rand cacheLineSz)
  have hslot := config.slot_le (Nat.mod_lt (number % 2 ^ 64) husable.batchSize)
  rw [← hstart] at hslot
  cases hread : config.isRead with
  | false =>
      refine ⟨?_, ?_, ?_, ?_, ?_⟩ <;>
        simp only [DmaDescriptor.batchRange, DmaDescriptor.src, DmaDescriptor.dst,
          ChannelConfig.descriptor, hread, Bool.false_eq_true, ↓reduceIte]
      · exact hstart
      · exact hslot
      · exact hrand
  | true =>
      refine ⟨?_, ?_, ?_, ?_, ?_⟩ <;>
        simp only [DmaDescriptor.batchRange, DmaDescriptor.src, DmaDescriptor.dst,
          ChannelConfig.descriptor, hread, reduceCtorEq, ↓reduceIte]
      · exact hstart
      · exact hrand
      · exact hslot

end Usable

/-! ## The running offset -/

/-- The offset at each point of the sender. -/
def Sender.AtSlot (config : ChannelConfig) (sender : Sender) : Prop :=
  match sender.pc with
  | .fill => sender.start.toNat = sender.index.toNat * config.payload.toNat
  | .head | .send => sender.start.toNat =
      sender.sendNum.toNat % config.batchSize.toNat * config.payload.toNat
  | _ => True

def SenderEvent.descriptors : SenderEvent → List DmaDescriptor
  | .send descriptor => [descriptor]
  | _ => []

/-- Every descriptor is placed by its number, and the next one will be. -/
structure Sender.Places (config : ChannelConfig) (sender : Sender) (sent : List DmaDescriptor) :
    Prop where
  atSlot : sender.AtSlot config
  placed : ∀ number descriptor, sent[number]? = some descriptor →
    config.PlacedAt number descriptor

section Places

variable {config : ChannelConfig} {sender sender' : Sender} {event : SenderEvent}
  {sent : List DmaDescriptor} {applied : Nat}

/-- The count of descriptors, kept in 64 bits, goes on to the next slot or to the first. -/
theorem succ_mod_slot (value : BitVec 64) {batchSize : Nat} (hbatch : 1 ≤ batchSize) :
    (value + 1).toNat % batchSize = 0 ∨
      (value + 1).toNat % batchSize = value.toNat % batchSize + 1 := by
  by_cases hwrap : value.toNat < 2 ^ 64 - 1
  · rw [toNat_add_one hwrap]
    exact succ_mod hbatch value.toNat
  · left
    have hlast : (value + 1).toNat = 0 := by
      rw [BitVec.toNat_add]
      change (value.toNat + 1) % 2 ^ 64 = 0
      omega
    rw [hlast, Nat.zero_mod]

/-- A further payload behind a slot that is not the last does not leave the buffer. -/
theorem toNat_add_payload (husable : config.Usable) {start : BitVec 64} {slot : Nat}
    (hstart : start.toNat = slot * config.payload.toNat) (hslot : slot < config.batchSize.toNat) :
    (start + config.payload).toNat = (slot + 1) * config.payload.toNat := by
  have hend := config.slot_le hslot
  have hbuffer := husable.buffer
  rw [BitVec.toNat_add, hstart, Nat.succ_mul, Nat.mod_eq_of_lt (by omega)]

theorem Sender.AtSlot.sentOne (husable : config.Usable) (hpc : sender.pc = .send)
    (hslot : sender.AtSlot config) : (sender.sentOne config).AtSlot config := by
  simp only [Sender.AtSlot, hpc] at hslot
  simp only [Sender.AtSlot, Sender.sentOne, hpc]
  have hzero : (sender.sendNum + 1) % config.batchSize = 0 ↔
      (sender.sendNum + 1).toNat % config.batchSize.toNat = 0 := by
    rw [← BitVec.toNat_inj, BitVec.toNat_umod]
    rfl
  split
  next hfirst =>
    rw [hzero.mp hfirst, Nat.zero_mul]
    rfl
  next hnext =>
    have hmod := (succ_mod_slot sender.sendNum husable.batchSize).resolve_left
      (fun hfirst => hnext (hzero.mpr hfirst))
    rw [hmod]
    exact toNat_add_payload husable hslot (Nat.mod_lt _ husable.batchSize)

/-- A step keeps the offset in its place. -/
theorem SenderStep.atSlot (hstep : SenderStep config sender event sender')
    (husable : config.Usable) (hslot : sender.AtSlot config) : sender'.AtSlot config := by
  cases hstep with
  | fill hpc hlt _ =>
      simp only [Sender.AtSlot, hpc] at hslot ⊢
      have hbelow : sender.index.toNat < config.batchSize.toNat := hlt
      have hsmall := husable.batchSize_lt
      rw [toNat_add_one (by omega)]
      exact toNat_add_payload husable hslot hbelow
  | filled hpc hge =>
      change 0 = config.batchSize.toNat % config.batchSize.toNat * config.payload.toNat
      rw [Nat.mod_self, Nat.zero_mul]
  | read hpc value =>
      simp only [Sender.AtSlot, hpc] at hslot
      exact hslot
  | stop hpc =>
      trivial
  | send hpc hlt _ =>
      exact hslot.sentOne husable hpc
  | sent hpc hge =>
      simp only [Sender.AtSlot, hpc] at hslot
      exact hslot
  | close hpc =>
      trivial
  | reply hpc =>
      trivial

/-- A descriptor that a step sends is the one for the next number. -/
theorem SenderStep.placedAt {descriptor : DmaDescriptor}
    (hstep : SenderStep config sender (.send descriptor) sender') (husable : config.Usable)
    (hok : sender.Ok config sent.length applied) (hslot : sender.AtSlot config) :
    config.PlacedAt sent.length descriptor := by
  cases hstep with
  | fill hpc hlt _ =>
      simp only [Sender.Ok, hpc] at hok
      simp only [Sender.AtSlot, hpc] at hslot
      have hbelow : sender.index.toNat < config.batchSize.toNat := hlt
      have hsmall := husable.batchSize_lt
      apply husable.descriptor_placedAt
      rw [hslot, ← hok.1, Nat.mod_eq_of_lt (by omega : sender.index.toNat < 2 ^ 64),
        Nat.mod_eq_of_lt hbelow]
  | send hpc hlt _ =>
      simp only [Sender.Ok, hpc] at hok
      simp only [Sender.AtSlot, hpc] at hslot
      apply husable.descriptor_placedAt
      rw [hslot, hok.1, BitVec.toNat_ofNat]

theorem SenderStep.places (hstep : SenderStep config sender event sender')
    (husable : config.Usable) (hok : sender.Ok config sent.length applied)
    (hplaces : sender.Places config sent) : sender'.Places config (sent ++ event.descriptors) := by
  refine ⟨hstep.atSlot husable hplaces.atSlot, ?_⟩
  intro number descriptor hnumber
  by_cases hold : number < sent.length
  · rw [List.getElem?_append_left hold] at hnumber
    exact hplaces.placed number descriptor hnumber
  · rw [List.getElem?_append_right (by omega)] at hnumber
    -- Only a send adds to the list, and it adds one.
    cases event with
    | send latest =>
        simp only [SenderEvent.descriptors, List.getElem?_singleton] at hnumber
        split at hnumber
        next hzero =>
          obtain rfl : number = sent.length := by omega
          obtain rfl := Option.some.inj hnumber
          exact hstep.placedAt husable hok hplaces.atSlot
        next => exact absurd hnumber nofun
    | _ => exact absurd hnumber nofun

end Places

/-! ## Any readings of the sync event -/

/-- The sender with what it sent and the value it read last. -/
structure ReadingFlow where
  sender : Sender
  sent : List DmaDescriptor
  reading : Nat

/-- The sync event is read as any value that is no smaller than before and no more
than what was sent. -/
inductive ReadingStep (config : ChannelConfig) : ReadingFlow → SenderEvent → ReadingFlow → Prop
  | read {state : ReadingFlow} {sender : Sender} {value : Nat} (hle : state.reading ≤ value)
      (hsent : value ≤ state.sent.length)
      (hstep : SenderStep config state.sender (.read (BitVec.ofNat 64 value)) sender) :
      ReadingStep config state (.read (BitVec.ofNat 64 value))
        { state with sender, reading := value }
  | other {state : ReadingFlow} {sender : Sender} {event : SenderEvent}
      (hevent : ∀ value, event ≠ .read value)
      (hstep : SenderStep config state.sender event sender) :
      ReadingStep config state event
        { state with sender, sent := state.sent ++ event.descriptors }

def readingSystem (config : ChannelConfig) : System ReadingFlow SenderEvent where
  start state := state = ⟨.init, [], 0⟩
  step := ReadingStep config

section Readings

variable {config : ChannelConfig}

theorem SenderEvent.length_descriptors (event : SenderEvent) :
    event.descriptors.length = event.sends := by
  cases event <;> rfl

/-- The offset of every descriptor, along any run. -/
structure ReadingFlow.Placed (config : ChannelConfig) (state : ReadingFlow) : Prop where
  reading_le : state.reading ≤ state.sent.length
  ok : state.sender.Ok config state.sent.length state.reading
  places : state.sender.Places config state.sent

theorem ReadingStep.placed {state next : ReadingFlow} {event : SenderEvent}
    (hstep : ReadingStep config state event next) (husable : config.Usable)
    (hplaced : state.Placed config) : next.Placed config := by
  cases hstep with
  | read hle hsent hstep =>
      have hok := hplaced.ok.mono hle
      refine ⟨hsent, hstep.ok hsent ?_ hok, ?_⟩
      · intro value hvalue
        cases hvalue
        rfl
      · simpa only [SenderEvent.descriptors, List.append_nil] using
          hstep.places husable hok hplaced.places
  | other hevent hstep =>
      refine ⟨?_, ?_, hstep.places husable hplaced.ok hplaced.places⟩
      · rw [List.length_append]
        exact hplaced.reading_le.trans (Nat.le_add_right _ _)
      · rw [List.length_append, SenderEvent.length_descriptors]
        exact hstep.ok hplaced.reading_le (fun value hread => absurd hread (hevent value))
          hplaced.ok

theorem readingSystem_placed (husable : config.Usable) {state : ReadingFlow}
    (hreach : (readingSystem config).Reachable state) : state.Placed config := by
  apply hreach.invariant
  · intro state hstart
    rw [hstart]
    refine ⟨le_rfl, ⟨rfl, Nat.zero_le _⟩, ?_, nofun⟩
    change 0 = 0 * config.payload.toNat
    rw [Nat.zero_mul]
  · intro state event next _ hplaced hstep
    exact ReadingStep.placed hstep husable hplaced

end Readings

/-! ## Jobs done in the order submitted -/

/-- The runs in which the DMA engine always does the oldest pending job. -/
def orderedFlow (config : ChannelConfig) : System DmaFlow FlowAction where
  start := (flowSystem config).start
  step state action next := FlowStep config state action next ∧
    (action = .copy → ∃ descriptor, state.pending = descriptor :: next.pending ∧
      next.copied = state.copied ++ [descriptor])

structure DmaFlow.Ordered (config : ChannelConfig) (state : DmaFlow) : Prop where
  linked : state.Linked config
  places : state.sender.Places config state.sent
  order : state.submitted = state.copied ++ state.pending

section Ordered

variable {config : ChannelConfig} {state next : DmaFlow} {action : FlowAction}

/-- What a step does to the sender and its list is a step of the sender. -/
theorem FlowStep.places (hstep : FlowStep config state action next) (husable : config.Usable)
    (hlinked : state.Linked config) (hplaces : state.sender.Places config state.sent) :
    next.sender.Places config next.sent := by
  cases hstep with
  | senderTau hstep | read hstep | close hstep | senderReply _ hstep =>
      simpa only [SenderEvent.descriptors, List.append_nil] using
        hstep.places husable hlinked.sender hplaces
  | send hstep =>
      exact hstep.places husable hlinked.sender hplaces
  | _ => exact hplaces

theorem FlowStep.order (hstep : FlowStep config state action next)
    (hcopy : action = .copy → ∃ descriptor, state.pending = descriptor :: next.pending ∧
      next.copied = state.copied ++ [descriptor])
    (horder : state.submitted = state.copied ++ state.pending) :
    next.submitted = next.copied ++ next.pending := by
  cases hstep with
  | submitDma _ _ =>
      change state.submitted ++ _ = state.copied ++ (state.pending ++ _)
      rw [horder, List.append_assoc]
  | copy _ =>
      obtain ⟨descriptor, hpending, hcopied⟩ := hcopy rfl
      rw [hcopied, List.append_assoc, List.singleton_append, ← hpending]
      exact horder
  | _ => exact horder

theorem orderedFlow_ordered (husable : config.Usable)
    (hreach : (orderedFlow config).Reachable state) : state.Ordered config := by
  have hsmall : config.batchSize.toNat < 2 ^ 64 - 1 := husable.batchSize_lt.trans (by decide)
  apply hreach.invariant
  · intro state hstart
    obtain rfl : state = DmaFlow.init := hstart
    refine ⟨DmaFlow.init_linked config, ⟨?_, nofun⟩, rfl⟩
    change 0 = 0 * config.payload.toNat
    rw [Nat.zero_mul]
  · rintro state action next - hordered ⟨hstep, hcopy⟩
    exact ⟨FlowStep.linked hstep hsmall hordered.linked,
      FlowStep.places hstep husable hordered.linked hordered.places,
      FlowStep.order hstep hcopy hordered.order⟩

/-- The jobs that are done are those of the first descriptors. -/
theorem DmaFlow.Ordered.copied_prefix (hordered : state.Ordered config) :
    state.copied <+: state.sent := by
  obtain ⟨items, hsent, -⟩ := hordered.linked.transit
  exact ⟨state.pending ++ items, by rw [hsent, hordered.order, List.append_assoc]⟩

theorem DmaFlow.Linked.sent_le_copied (hlinked : state.Linked config) :
    state.sent.length ≤ state.copied.length + config.batchSize.toNat :=
  calc state.sent.length ≤ state.addApplied + config.batchSize.toNat := hlinked.sender.window
    _ ≤ state.dmaPolled + config.batchSize.toNat :=
      Nat.add_le_add_right (hlinked.applied_le.trans hlinked.receiver.add_le) _
    _ ≤ state.copied.length + config.batchSize.toNat :=
      Nat.add_le_add_right hlinked.polled_le _

end Ordered

/-! ## Distinct places -/

/-- The numbers of two descriptors did not wrap between the two, or wrapping
does not matter to the batch size. -/
def ChannelConfig.Comparable (config : ChannelConfig) (first second : Nat) : Prop :=
  first / 2 ^ 64 = second / 2 ^ 64 ∨ config.batchSize.toNat ∣ 2 ^ 64

section Distinct

variable {config : ChannelConfig}

theorem ChannelConfig.PlacedAt.not_overlaps {first second : Nat}
    {firstDescriptor secondDescriptor : DmaDescriptor}
    (hfirst : config.PlacedAt first firstDescriptor)
    (hsecond : config.PlacedAt second secondDescriptor)
    (hne : first % 2 ^ 64 % config.batchSize.toNat ≠
      second % 2 ^ 64 % config.batchSize.toNat) :
    ¬ (firstDescriptor.batchRange config).Overlaps (secondDescriptor.batchRange config) := by
  rintro ⟨-, hbefore, hafter⟩
  rw [hfirst.offset, hsecond.offset, hsecond.length, ← Nat.succ_mul] at hbefore
  rw [hfirst.offset, hsecond.offset, hfirst.length, ← Nat.succ_mul] at hafter
  have hle := Nat.lt_of_mul_lt_mul_right hbefore
  have hge := Nat.lt_of_mul_lt_mul_right hafter
  omega

/-- When the first `completed` descriptors are completed, those in flight have
different ranges of the batch buffer. -/
def ChannelConfig.InFlightDisjoint (config : ChannelConfig) (sent : List DmaDescriptor)
    (completed : Nat) : Prop :=
  ∀ first second firstDescriptor secondDescriptor,
    completed ≤ first → first < second → config.Comparable first second →
    sent[first]? = some firstDescriptor → sent[second]? = some secondDescriptor →
    ¬ (firstDescriptor.batchRange config).Overlaps (secondDescriptor.batchRange config)

theorem Sender.Places.inFlightDisjoint {sender : Sender} {sent : List DmaDescriptor}
    {completed : Nat} (hplaces : sender.Places config sent)
    (hwindow : sent.length ≤ completed + config.batchSize.toNat) :
    config.InFlightDisjoint sent completed := by
  intro first second firstDescriptor secondDescriptor hinflight hlt hwrap hfirst hsecond
  have hlast := (List.getElem?_eq_some_iff.mp hsecond).1
  exact (hplaces.placed first firstDescriptor hfirst).not_overlaps
    (hplaces.placed second secondDescriptor hsecond) (mod_mod_ne_of_lt hlt (by omega) hwrap)

/-- Every descriptor is where its number says and inside its buffers, for all
readings of the sync event. Those in flight are disjoint whenever the reading counts
completed jobs only, as it does when both programs run and jobs are done in order. -/
theorem descriptors_placed (husable : config.Usable) :
    (∀ state, (readingSystem config).Reachable state →
      (∀ number descriptor, state.sent[number]? = some descriptor →
        config.PlacedAt number descriptor) ∧
      ∀ completed, state.reading ≤ completed → config.InFlightDisjoint state.sent completed) ∧
    (∀ state, (orderedFlow config).Reachable state → state.copied <+: state.sent ∧
      (∀ number descriptor, state.sent[number]? = some descriptor →
        config.PlacedAt number descriptor) ∧
      config.InFlightDisjoint state.sent state.copied.length) := by
  constructor
  · intro state hreach
    have hplaced := readingSystem_placed husable hreach
    refine ⟨hplaced.places.placed, ?_⟩
    intro completed hcompleted
    exact hplaced.places.inFlightDisjoint
      (hplaced.ok.window.trans (Nat.add_le_add_right hcompleted _))
  · intro state hreach
    have hordered := orderedFlow_ordered husable hreach
    exact ⟨hordered.copied_prefix, hordered.places.placed,
      hordered.places.inFlightDisjoint hordered.linked.sent_le_copied⟩

end Distinct

/-! ## A wrap of the count -/

section Turn

variable {config : ChannelConfig} {state next : DmaFlow} {action : FlowAction} {count : Nat}

/-- Between two turns, in each of which one job is done and replaced: both loops are
at their heads, the channel is empty and every completion was polled and added. -/
structure DmaFlow.AtTurn (config : ChannelConfig) (state : DmaFlow) (count : Nat) : Prop where
  sender : state.sender.pc = .head
  receiver : state.receiver.pc = .pollDma
  channel : state.channel = []
  pending : state.pending.length = config.batchSize.toNat
  sent : state.sent.length = count + config.batchSize.toNat
  copied : state.copied.length = count
  dmaPolled : state.dmaPolled = count
  addSubmitted : state.addSubmitted = count
  addApplied : state.addApplied = count
  addPolled : state.addPolled = count

theorem orderedFlow_step (hreach : (orderedFlow config).Reachable state)
    (hstep : FlowStep config state action next) (hother : action ≠ .copy) :
    (orderedFlow config).Reachable next :=
  hreach.step ⟨hstep, fun hcopy => absurd hcopy hother⟩

/-- A round of the sender in which one descriptor is due. -/
theorem orderedFlow_round (hreach : (orderedFlow config).Reachable state)
    (hpc : state.sender.pc = .head)
    (hneed : state.counter + config.batchSize - state.sender.sendNum = 1) :
    ∃ sender descriptor, sender.pc = .head ∧ (orderedFlow config).Reachable
      { state with
        sender
        channel := state.channel ++ [.item descriptor]
        sent := state.sent ++ [descriptor] } := by
  obtain ⟨reader, hpc, hindex, hneed, hread⟩ : ∃ reader : Sender, reader.pc = .send ∧
      reader.index = 0 ∧ reader.needToSend = 1 ∧
      (orderedFlow config).Reachable { state with sender := reader } :=
    ⟨_, rfl, rfl, hneed, orderedFlow_step hreach (.read (.read hpc _)) (by simp)⟩
  obtain ⟨sender, descriptor, hpc, hindex, hneed, hsent⟩ : ∃ (sender : Sender)
      (descriptor : DmaDescriptor), sender.pc = .send ∧ sender.index = 1 ∧
      sender.needToSend = 1 ∧ (orderedFlow config).Reachable
        { state with
          sender
          channel := state.channel ++ [.item descriptor]
          sent := state.sent ++ [descriptor] } := by
    refine ⟨reader.sentOne config, _, hpc, ?_, hneed, orderedFlow_step hread (.send (.send hpc ?_
      (show (0 : BitVec 64) ≤ int32Max by decide))) (by simp)⟩
    · simp only [Sender.sentOne, hindex]
      rfl
    · rw [hindex, hneed]
      decide
  refine ⟨_, descriptor, rfl, orderedFlow_step hsent (.senderTau (.sent hpc ?_)) (by simp)⟩
  change ¬ sender.index < sender.needToSend
  rw [hindex, hneed]
  decide

/-- After one more job is done the sender sends one more descriptor. -/
theorem DmaFlow.AtTurn.turn (husable : config.Usable)
    (hreach : (orderedFlow config).Reachable state) (hturn : state.AtTurn config count) :
    ∃ state', (orderedFlow config).Reachable state' ∧ state'.AtTurn config (count + 1) := by
  obtain ⟨descriptor, rest, hpending⟩ := List.exists_cons_of_length_pos
    (show 0 < state.pending.length from hturn.pending ▸ husable.batchSize)
  have hcopied := hreach.step ⟨FlowStep.copy
    (show state.pending = [] ++ descriptor :: rest from hpending),
    fun _ => ⟨descriptor, hpending, rfl⟩⟩
  have hpolled := orderedFlow_step hcopied (.pollDma
    (by simp [hturn.dmaPolled, hturn.copied]) (.pollDma hturn.receiver)) (by simp)
  have hsubmitted := orderedFlow_step hpolled (.submitAdd (.submitAdd rfl)) (by simp)
  have happlied := orderedFlow_step hsubmitted (.applyAdd
    (by simp [hturn.addApplied, hturn.addSubmitted])) (by simp)
  have hlinked := (orderedFlow_ordered husable happlied).linked
  have hsendNum := hlinked.sender
  simp only [Sender.Ok, hturn.sender] at hsendNum
  -- The new reading lets exactly one descriptor through.
  have hneed : state.counter + 1 + config.batchSize - state.sender.sendNum = 1 := by
    have hone := toNat_needToSend hlinked.applied_le_sent hsendNum.2.1
    rw [← hlinked.counter, ← hsendNum.1] at hone
    simp only [hturn.sent, hturn.addApplied] at hone
    apply BitVec.eq_of_toNat_eq
    change _ = 1
    omega
  obtain ⟨sender, latest, hpc, hround⟩ := orderedFlow_round happlied hturn.sender hneed
  have hreceived := orderedFlow_step hround (.submitDma (by rw [hturn.channel]; rfl)
    (.recv rfl latest)) (by simp)
  have hwaited := orderedFlow_step hreceived (.pollAdd
    (by simp [hturn.addApplied, hturn.addPolled]) (.waitAdd rfl)) (by simp)
  refine ⟨_, hwaited, hpc, rfl, rfl, ?_, ?_, ?_, ?_, ?_, ?_, ?_⟩
  · simpa [hpending] using hturn.pending
  · simp [hturn.sent, Nat.add_right_comm]
  · simp [hturn.copied]
  · simp [hturn.dmaPolled]
  · simp [hturn.addSubmitted]
  · simp [hturn.addApplied]
  · simp [hturn.addPolled]

end Turn

/-- Batches of three descriptors, a size that does not divide the range of the count. -/
def threeAtOnce : ChannelConfig := ⟨3, 64, 4096, false⟩

theorem threeAtOnce_usable : threeAtOnce.Usable :=
  ⟨by decide, by decide, by decide, by decide⟩

/-- The first batch is sent and its jobs are submitted. -/
theorem threeAtOnce_atTurn_zero : ∃ state, (orderedFlow threeAtOnce).Reachable state ∧
    state.AtTurn threeAtOnce 0 := by
  have hstart : (orderedFlow threeAtOnce).Reachable DmaFlow.init := .start rfl
  have hfirst := orderedFlow_step hstart (.send (.fill rfl (by decide)
    (show (0 : BitVec 64) ≤ int32Max by decide))) nofun
  have hsecond := orderedFlow_step hfirst (.send (.fill rfl (by decide)
    (show (0 : BitVec 64) ≤ int32Max by decide))) nofun
  have hthird := orderedFlow_step hsecond (.send (.fill rfl (by decide)
    (show (0 : BitVec 64) ≤ int32Max by decide))) nofun
  have hfilled := orderedFlow_step hthird (.senderTau (.filled rfl (by decide))) nofun
  have hone := orderedFlow_step hfilled (.submitDma rfl (.fill rfl (by decide) _)) nofun
  have htwo := orderedFlow_step hone (.submitDma rfl (.fill rfl (by decide) _)) nofun
  have hthree := orderedFlow_step htwo (.submitDma rfl (.fill rfl (by decide) _)) nofun
  have hready := orderedFlow_step hthree (.receiverTau (.filled rfl (by decide))) nofun
  exact ⟨_, hready, rfl, rfl, rfl, rfl, rfl, rfl, rfl, rfl, rfl, rfl⟩

theorem threeAtOnce_atTurn (count : Nat) : ∃ state,
    (orderedFlow threeAtOnce).Reachable state ∧ state.AtTurn threeAtOnce count := by
  induction count with
  | zero => exact threeAtOnce_atTurn_zero
  | succ count ih =>
      obtain ⟨state, hreach, hturn⟩ := ih
      exact hturn.turn threeAtOnce_usable hreach

theorem descriptors_placed_threeAtOnce : ∃ state, (orderedFlow threeAtOnce).Reachable state ∧
    state.sent.length = 3 ∧ threeAtOnce.InFlightDisjoint state.sent 0 := by
  obtain ⟨state, hreach, hturn⟩ := threeAtOnce_atTurn_zero
  have hdisjoint := ((descriptors_placed threeAtOnce_usable).2 state hreach).2.2
  rw [hturn.copied] at hdisjoint
  exact ⟨state, hreach, hturn.sent, hdisjoint⟩

/-- The last descriptor before the count wraps and the first one after it are in
flight together and have the same range of the batch buffer. -/
theorem descriptors_collide : ∃ state, (orderedFlow threeAtOnce).Reachable state ∧
    ∃ first second, state.sent[2 ^ 64 - 1]? = some first ∧ state.sent[2 ^ 64]? = some second ∧
      state.copied.length ≤ 2 ^ 64 - 1 ∧
      (first.batchRange threeAtOnce).Overlaps (second.batchRange threeAtOnce) ∧
      (second.batchRange threeAtOnce).offset.toNat ≠
        2 ^ 64 % threeAtOnce.batchSize.toNat * threeAtOnce.payload.toNat := by
  obtain ⟨state, hreach, hturn⟩ := threeAtOnce_atTurn (2 ^ 64 - 1)
  have hplaces := (orderedFlow_ordered threeAtOnce_usable hreach).places
  have hlength : state.sent.length = 2 ^ 64 + 2 := hturn.sent
  have hfirst := List.getElem?_eq_getElem (l := state.sent) (i := 2 ^ 64 - 1) (by omega)
  have hsecond := List.getElem?_eq_getElem (l := state.sent) (i := 2 ^ 64) (by omega)
  have hplaced := hplaces.placed _ _ hfirst
  have hplaced' := hplaces.placed _ _ hsecond
  refine ⟨state, hreach, _, _, hfirst, hsecond, hturn.copied.le, ⟨?_, ?_, ?_⟩, ?_⟩
  · rw [hplaced.memory, hplaced'.memory]
  · rw [hplaced.offset, hplaced'.offset, hplaced'.length]
    decide
  · rw [hplaced.offset, hplaced'.offset, hplaced.length]
    decide
  · rw [hplaced'.offset]
    decide

end BenchBF3.Channel
