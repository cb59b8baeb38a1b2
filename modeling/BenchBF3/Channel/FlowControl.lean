import BenchBF3.Channel.Dma

/-! # Flow control of the DMA channel

The sender never has more than a batch of descriptors beyond the value of the
sync event. That bounds the receiver's DMA jobs, and since it polls one add job
for each descriptor after the first batch, also its sync event jobs. What each
program knows of its own counters is stated for each program point; the counts
of jobs and the contents of the channel link the two.
-/

namespace BenchBF3.Channel

open Foundation

/-! ## Program points -/

/-- What holds at a point of the sender when it has sent some descriptors and the
sync event has some value. -/
def Sender.Ok (config : ChannelConfig) (sender : Sender) (sent applied : Nat) : Prop :=
  match sender.pc with
  | .fill => sender.index.toNat = sent ∧ sent ≤ config.batchSize.toNat
  | .head => sender.sendNum = BitVec.ofNat 64 sent ∧
      sent ≤ applied + config.batchSize.toNat ∧ sender.inflightNum = config.batchSize
  | .send => sender.sendNum = BitVec.ofNat 64 sent ∧
      sender.index.toNat ≤ sender.needToSend.toNat ∧
      sender.needToSend.toNat ≤ config.batchSize.toNat ∧
      sent + sender.needToSend.toNat ≤
        applied + config.batchSize.toNat + sender.index.toNat ∧
      sender.inflightNum.toNat + sender.needToSend.toNat =
        config.batchSize.toNat + sender.index.toNat
  | _ => sent ≤ applied + config.batchSize.toNat

/-- A counter of the jobs that are submitted and not polled. -/
def Unpolled (value : BitVec 64) (submitted polled : Nat) : Prop :=
  value.toNat + polled = submitted

def Receiver.Counts (receiver : Receiver) (submitted polled addSubmitted addPolled : Nat) :
    Prop :=
  Unpolled receiver.inflightNum submitted polled ∧
    Unpolled receiver.seWorkqNum addSubmitted addPolled

/-- What holds at a point of the receiver, given the numbers of its DMA jobs and
of its add jobs. -/
def Receiver.Ok (config : ChannelConfig) (receiver : Receiver)
    (submitted polled addSubmitted addPolled : Nat) : Prop :=
  match receiver.pc with
  | .fill => receiver.index.toNat = submitted ∧ submitted ≤ config.batchSize.toNat ∧
      polled = 0 ∧ addSubmitted = 0 ∧ addPolled = 0
  | .submitAdd => receiver.Counts submitted polled addSubmitted addPolled ∧
      submitted = config.batchSize.toNat + addPolled ∧ addSubmitted + 1 = polled
  | .waitAdd => receiver.Counts submitted polled addSubmitted addPolled ∧
      submitted = config.batchSize.toNat + addPolled + 1 ∧ addSubmitted = polled ∧
      polled < submitted
  | .drainDma => receiver.Counts submitted polled addSubmitted addPolled ∧
      addSubmitted ≤ addPolled + config.batchSize.toNat ∧ addSubmitted ≤ polled
  | .drainAdd => receiver.Counts submitted polled addSubmitted addPolled ∧
      addSubmitted ≤ addPolled + config.batchSize.toNat ∧ polled = submitted ∧
      addSubmitted ≤ polled
  | .reply | .done => receiver.Counts submitted polled addSubmitted addPolled ∧
      polled = submitted ∧ addPolled = addSubmitted ∧ addSubmitted ≤ polled
  | _ => receiver.Counts submitted polled addSubmitted addPolled ∧
      submitted = config.batchSize.toNat + addPolled ∧ addSubmitted = polled

def Sender.closed (sender : Sender) : Bool :=
  sender.pc = .waitReply ∨ sender.pc = .done

def Receiver.ended (receiver : Receiver) : Bool :=
  receiver.pc = .drainDma ∨ receiver.pc = .drainAdd ∨ receiver.pc = .reply ∨ receiver.pc = .done

theorem toNat_add_one {value : BitVec 64} (hlt : value.toNat < 2 ^ 64 - 1) :
    (value + 1).toNat = value.toNat + 1 := by
  rw [BitVec.toNat_add]
  exact Nat.mod_eq_of_lt (by simp; omega)

section Unpolled

variable {value : BitVec 64} {submitted polled : Nat}

theorem Unpolled.submit (hunpolled : Unpolled value submitted polled)
    (hlt : submitted < polled + (2 ^ 64 - 1)) : Unpolled (value + 1) (submitted + 1) polled := by
  unfold Unpolled at hunpolled ⊢
  rw [toNat_add_one (by omega)]
  omega

theorem Unpolled.poll (hunpolled : Unpolled value submitted polled) (hlt : polled < submitted) :
    Unpolled (value - 1) submitted (polled + 1) := by
  unfold Unpolled at hunpolled ⊢
  rw [BitVec.toNat_sub_of_le (by rw [BitVec.le_def]; change 1 ≤ _; omega)]
  change value.toNat - 1 + _ = _
  omega

theorem Unpolled.eq_zero_iff (hunpolled : Unpolled value submitted polled) :
    value = 0 ↔ polled = submitted := by
  unfold Unpolled at hunpolled
  rw [← BitVec.toNat_inj]
  change value.toNat = 0 ↔ _
  omega

end Unpolled

section Sender

variable {config : ChannelConfig} {sender sender' : Sender} {event : SenderEvent}
  {sent applied : Nat}

/-- The window that the sync event gives the sender. -/
theorem Sender.Ok.window (hok : sender.Ok config sent applied) :
    sent ≤ applied + config.batchSize.toNat := by
  unfold Sender.Ok at hok
  split at hok <;> omega

theorem Sender.Ok.mono (hok : sender.Ok config sent applied) {applied' : Nat}
    (hle : applied ≤ applied') : sender.Ok config sent applied' := by
  unfold Sender.Ok at hok ⊢
  cases hpc : sender.pc <;> simp only [hpc] at hok ⊢ <;> grind

/-- The difference that `need_to_send` computes is the natural one. -/
theorem toNat_needToSend {batchSize : BitVec 64} (happlied : applied ≤ sent)
    (hwindow : sent ≤ applied + batchSize.toNat) :
    (BitVec.ofNat 64 applied + batchSize - BitVec.ofNat 64 sent).toNat + sent =
      applied + batchSize.toNat := by
  simp only [BitVec.toNat_sub, BitVec.toNat_add, BitVec.toNat_ofNat]
  omega

/-- The number of descriptors that a step sends. -/
def SenderEvent.sends : SenderEvent → Nat
  | .send _ => 1
  | _ => 0

theorem SenderStep.ok (hstep : SenderStep config sender event sender') (happlied : applied ≤ sent)
    (hread : ∀ value, event = .read value → value = BitVec.ofNat 64 applied)
    (hok : sender.Ok config sent applied) : sender'.Ok config (sent + event.sends) applied := by
  have hwindow := hok.window
  have hbatch := config.batchSize.isLt
  cases hstep with
  | fill hpc hlt _ =>
      simp only [Sender.Ok, hpc] at hok ⊢
      obtain ⟨hindex, hle⟩ := hok
      have hbelow : sender.index.toNat < config.batchSize.toNat := hlt
      rw [toNat_add_one (by omega)]
      exact ⟨congrArg (· + 1) hindex, by simp only [SenderEvent.sends]; omega⟩
  | filled hpc hge =>
      simp only [Sender.Ok, hpc] at hok
      obtain ⟨hindex, hle⟩ := hok
      have habove : ¬ sender.index.toNat < config.batchSize.toNat := hge
      obtain rfl : sent = config.batchSize.toNat := by omega
      exact ⟨by simp [Sender.filled, SenderEvent.sends], hwindow, rfl⟩
  | read hpc value =>
      simp only [Sender.Ok, hpc] at hok
      obtain ⟨hsendNum, -, hinflight⟩ := hok
      have hneed := toNat_needToSend happlied hwindow
      rw [← hread value rfl, ← hsendNum] at hneed
      refine ⟨hsendNum, Nat.zero_le _, ?_, ?_, ?_⟩ <;>
        simp only [Sender.read, SenderEvent.sends, hinflight]
      · omega
      · change _ ≤ applied + config.batchSize.toNat + 0
        omega
      · rw [BitVec.toNat_sub_of_le (by rw [BitVec.le_def]; omega)]
        change _ = config.batchSize.toNat + 0
        omega
  | stop hpc =>
      exact hwindow
  | send hpc hlt _ =>
      simp only [Sender.Ok, hpc] at hok
      obtain ⟨hsendNum, hindex, hneed, hroom, hinflight⟩ := hok
      have hbelow : sender.index.toNat < sender.needToSend.toNat := hlt
      simp only [Sender.Ok, Sender.sentOne, hpc, SenderEvent.sends]
      rw [toNat_add_one (by omega), toNat_add_one (by omega)]
      refine ⟨?_, by omega, hneed, by omega, by omega⟩
      rw [hsendNum, BitVec.ofNat_add]
      rfl
  | sent hpc hge =>
      simp only [Sender.Ok, hpc] at hok
      obtain ⟨hsendNum, hindex, hneed, hroom, hinflight⟩ := hok
      have habove : ¬ sender.index.toNat < sender.needToSend.toNat := hge
      refine ⟨hsendNum, hwindow, BitVec.eq_of_toNat_eq ?_⟩
      change sender.inflightNum.toNat = _
      omega
  | close hpc =>
      exact hwindow
  | reply hpc =>
      exact hwindow

/-- A closed sender sends nothing more. -/
theorem SenderStep.closed_eq (hstep : SenderStep config sender event sender') :
    match event with
    | .send _ => sender.closed = false ∧ sender'.closed = false
    | .close => sender.closed = false ∧ sender'.closed = true
    | _ => sender'.closed = sender.closed := by
  cases hstep <;> simp_all [Sender.closed, Sender.filled, Sender.read, Sender.sentOne]

end Sender

section Receiver

variable {config : ChannelConfig} {receiver receiver' : Receiver} {event : ReceiverEvent}
  {submitted polled addSubmitted addPolled : Nat}

theorem Receiver.Ok.counts (hok : receiver.Ok config submitted polled addSubmitted addPolled)
    (hpc : receiver.pc ≠ .fill) : receiver.Counts submitted polled addSubmitted addPolled := by
  unfold Receiver.Ok at hok
  split at hok
  next hfill => exact absurd hfill hpc
  all_goals exact hok.1

/-- Every add job is for a DMA job whose completion was polled. -/
theorem Receiver.Ok.add_le (hok : receiver.Ok config submitted polled addSubmitted addPolled) :
    addSubmitted ≤ polled := by
  unfold Receiver.Ok at hok
  split at hok <;> omega

/-- The add jobs that are not polled fit the work queue. -/
theorem Receiver.Ok.add_le_batch
    (hok : receiver.Ok config submitted polled addSubmitted addPolled)
    (hpolled : polled ≤ submitted) : addSubmitted ≤ addPolled + config.batchSize.toNat := by
  unfold Receiver.Ok at hok
  split at hok <;> omega

def ReceiverEvent.submitsDma : ReceiverEvent → Nat
  | .submitDma _ => 1
  | _ => 0

def ReceiverEvent.pollsDma : ReceiverEvent → Nat
  | .pollDma => 1
  | _ => 0

def ReceiverEvent.submitsAdd : ReceiverEvent → Nat
  | .submitAdd => 1
  | _ => 0

def ReceiverEvent.pollsAdd : ReceiverEvent → Nat
  | .pollAdd => 1
  | _ => 0

/-- The conditions say that no completion is polled twice, and that the sender's
window holds. -/
theorem ReceiverStep.ok (hstep : ReceiverStep config receiver event receiver')
    (hsmall : config.batchSize.toNat < 2 ^ 64 - 1)
    (hwindow : submitted ≤ polled + config.batchSize.toNat)
    (hpolled : polled + event.pollsDma ≤ submitted)
    (haddPolled : addPolled + event.pollsAdd ≤ addSubmitted)
    (hok : receiver.Ok config submitted polled addSubmitted addPolled) :
    receiver'.Ok config (submitted + event.submitsDma) (polled + event.pollsDma)
      (addSubmitted + event.submitsAdd) (addPolled + event.pollsAdd) := by
  have hadd := hok.add_le_batch (by omega)
  cases hstep with
  | fill hpc hlt _ =>
      simp only [Receiver.Ok, hpc] at hok ⊢
      obtain ⟨hindex, hle, hzero⟩ := hok
      have hbelow : receiver.index.toNat < config.batchSize.toNat := hlt
      rw [toNat_add_one (by omega)]
      exact ⟨congrArg (· + 1) hindex, hindex ▸ hbelow, hzero⟩
  | filled hpc hge =>
      simp only [Receiver.Ok, hpc] at hok
      obtain ⟨hindex, hle, rfl, rfl, rfl⟩ := hok
      have habove : ¬ receiver.index.toNat < config.batchSize.toNat := hge
      obtain rfl : submitted = config.batchSize.toNat := by omega
      exact ⟨⟨rfl, rfl⟩, rfl, rfl⟩
  | pollDma hpc =>
      simp only [Receiver.Ok, hpc] at hok
      obtain ⟨⟨hdma, hse⟩, hsubmitted, hequal⟩ := hok
      exact ⟨⟨hdma.poll hpolled, hse⟩, hsubmitted, congrArg (· + 1) hequal⟩
  | pollAgain hpc =>
      simp only [Receiver.Ok, hpc] at hok
      exact hok
  | submitAdd hpc =>
      simp only [Receiver.Ok, hpc] at hok
      obtain ⟨⟨hdma, hse⟩, hsubmitted, hequal⟩ := hok
      exact ⟨⟨hdma, hse.submit (by omega)⟩, hsubmitted, hequal⟩
  | recv hpc _ =>
      simp only [Receiver.Ok, hpc] at hok
      obtain ⟨⟨hdma, hse⟩, hsubmitted, hequal⟩ := hok
      exact ⟨⟨hdma.submit (by omega), hse⟩, congrArg (· + 1) hsubmitted, hequal,
        Nat.lt_succ_of_le hpolled⟩
  | recvAgain hpc =>
      simp only [Receiver.Ok, hpc] at hok
      exact hok
  | recvSuccess hpc =>
      simp only [Receiver.Ok, hpc] at hok
      exact ⟨hok.1, hadd, hok.2.2.le⟩
  | waitAdd hpc =>
      simp only [Receiver.Ok, hpc] at hok
      obtain ⟨⟨hdma, hse⟩, hsubmitted, hequal, -⟩ := hok
      refine ⟨⟨hdma, hse.poll haddPolled⟩, ?_, hequal⟩
      simp only [ReceiverEvent.submitsDma, ReceiverEvent.pollsAdd]
      omega
  | drainDma hpc _ =>
      simp only [Receiver.Ok, hpc] at hok ⊢
      obtain ⟨⟨hdma, hse⟩, -, hle⟩ := hok
      exact ⟨⟨hdma.poll hpolled, hse⟩, hadd, hle.trans (Nat.le_succ _)⟩
  | drainedDma hpc hzero =>
      simp only [Receiver.Ok, hpc] at hok
      obtain ⟨⟨hdma, hse⟩, -, hle⟩ := hok
      exact ⟨⟨hdma, hse⟩, hadd, hdma.eq_zero_iff.mp hzero, hle⟩
  | drainAdd hpc _ =>
      simp only [Receiver.Ok, hpc] at hok ⊢
      obtain ⟨⟨hdma, hse⟩, -, hall, hle⟩ := hok
      refine ⟨⟨hdma, hse.poll haddPolled⟩, ?_, hall, hle⟩
      simp only [ReceiverEvent.submitsAdd, ReceiverEvent.pollsAdd]
      omega
  | drainedAdd hpc hzero =>
      simp only [Receiver.Ok, hpc] at hok
      obtain ⟨⟨hdma, hse⟩, -, hall, hle⟩ := hok
      exact ⟨⟨hdma, hse⟩, hall, hse.eq_zero_iff.mp hzero, hle⟩
  | reply hpc =>
      simp only [Receiver.Ok, hpc] at hok
      exact hok

/-- The closing message is taken once, and no descriptor after it. -/
theorem ReceiverStep.ended_eq (hstep : ReceiverStep config receiver event receiver') :
    match event with
    | .submitDma _ => receiver.ended = false ∧ receiver'.ended = false
    | .success => receiver.ended = false ∧ receiver'.ended = true
    | _ => receiver'.ended = receiver.ended := by
  cases hstep <;> simp_all [Receiver.ended]

end Receiver

/-! ## The joint invariant -/

/-- Both programs are at points that agree with the jobs and with the channel. -/
structure DmaFlow.Linked (config : ChannelConfig) (state : DmaFlow) : Prop where
  counter : state.counter = BitVec.ofNat 64 state.addApplied
  sender : state.sender.Ok config state.sent.length state.addApplied
  receiver : state.receiver.Ok config state.submitted.length state.dmaPolled
    state.addSubmitted state.addPolled
  transit : ∃ items, state.sent = state.submitted ++ items ∧
    InTransit state.sender.closed state.receiver.ended state.channel items
  copies : (state.pending ++ state.copied).Perm state.submitted
  polled_le : state.dmaPolled ≤ state.copied.length
  applied_le : state.addApplied ≤ state.addSubmitted
  addPolled_le : state.addPolled ≤ state.addApplied

section Linked

variable {config : ChannelConfig} {state next : DmaFlow} {action : FlowAction}

theorem DmaFlow.Linked.copied_le (hlinked : state.Linked config) :
    state.copied.length ≤ state.submitted.length := by
  have hlength := hlinked.copies.length_eq
  rw [List.length_append] at hlength
  omega

theorem DmaFlow.Linked.submitted_le (hlinked : state.Linked config) :
    state.submitted.length ≤ state.sent.length := by
  obtain ⟨items, hsent, -⟩ := hlinked.transit
  rw [hsent, List.length_append]
  omega

/-- Every add goes back to a descriptor that was sent. -/
theorem DmaFlow.Linked.applied_le_sent (hlinked : state.Linked config) :
    state.addApplied ≤ state.sent.length :=
  calc state.addApplied ≤ state.addSubmitted := hlinked.applied_le
    _ ≤ state.dmaPolled := hlinked.receiver.add_le
    _ ≤ state.copied.length := hlinked.polled_le
    _ ≤ state.submitted.length := hlinked.copied_le
    _ ≤ state.sent.length := hlinked.submitted_le

/-- The sender's window bounds the receiver's DMA jobs. -/
theorem DmaFlow.Linked.submitted_le_polled (hlinked : state.Linked config) :
    state.submitted.length ≤ state.dmaPolled + config.batchSize.toNat :=
  calc state.submitted.length ≤ state.sent.length := hlinked.submitted_le
    _ ≤ state.addApplied + config.batchSize.toNat := hlinked.sender.window
    _ ≤ state.dmaPolled + config.batchSize.toNat :=
      Nat.add_le_add_right (hlinked.applied_le.trans hlinked.receiver.add_le) _

theorem DmaFlow.init_linked (config : ChannelConfig) : init.Linked config where
  counter := rfl
  sender := ⟨rfl, Nat.zero_le _⟩
  receiver := ⟨rfl, Nat.zero_le _, rfl, rfl, rfl⟩
  transit := ⟨[], rfl, .opened []⟩
  copies := .refl _
  polled_le := le_rfl
  applied_le := le_rfl
  addPolled_le := le_rfl

/-- A sender step that leaves the channel alone. -/
theorem DmaFlow.Linked.withSender (hlinked : state.Linked config) {sender : Sender}
    (hok : sender.Ok config state.sent.length state.addApplied)
    (hclosed : sender.closed = state.sender.closed) :
    Linked config { state with sender } := by
  obtain ⟨items, htransit, hfifo⟩ := hlinked.transit
  refine { hlinked with
    sender := hok
    transit := ⟨items, htransit, ?_⟩ }
  rwa [hclosed]

/-- A receiver step that leaves the channel alone; it may poll a completion or
submit an add job. -/
theorem DmaFlow.Linked.withReceiver (hlinked : state.Linked config) {receiver : Receiver}
    {dmaPolled addSubmitted addPolled : Nat}
    (hok : receiver.Ok config state.submitted.length dmaPolled addSubmitted addPolled)
    (hended : receiver.ended = state.receiver.ended) (hpolled : dmaPolled ≤ state.copied.length)
    (happlied : state.addApplied ≤ addSubmitted) (haddPolled : addPolled ≤ state.addApplied) :
    Linked config { state with receiver, dmaPolled, addSubmitted, addPolled } := by
  obtain ⟨items, htransit, hfifo⟩ := hlinked.transit
  refine { hlinked with
    receiver := hok
    transit := ⟨items, htransit, ?_⟩
    polled_le := hpolled
    applied_le := happlied
    addPolled_le := haddPolled }
  rwa [hended]

/-- The receiver takes the next descriptor from the channel and submits its job. -/
theorem DmaFlow.Linked.submitDma (hlinked : state.Linked config) {receiver : Receiver}
    {descriptor : DmaDescriptor} {rest : List Message}
    (hchannel : state.channel = .item descriptor :: rest)
    (hok : receiver.Ok config (state.submitted.length + 1) state.dmaPolled state.addSubmitted
      state.addPolled)
    (hopen : state.receiver.ended = false) (hopen' : receiver.ended = false) :
    Linked config
      { state with
        receiver
        channel := rest
        submitted := state.submitted ++ [descriptor]
        pending := state.pending ++ [descriptor] } := by
  obtain ⟨items, htransit, hfifo⟩ := hlinked.transit
  rw [hchannel, hopen] at hfifo
  obtain ⟨later, rfl, hrest⟩ := hfifo.take
  refine { hlinked with
    receiver := ?_
    transit := ⟨later, ?_, ?_⟩
    copies := ?_ }
  · rwa [List.length_append]
  · rw [htransit, List.append_assoc]
    rfl
  · rwa [hopen']
  · -- The job may be done before older ones, so only the multiset is kept.
    change (state.pending ++ [descriptor] ++ state.copied).Perm _
    rw [List.append_assoc]
    exact List.perm_middle.trans
      ((hlinked.copies.cons descriptor).trans (List.perm_append_singleton _ _).symm)

/-- Any of the pending jobs may be the next to be done. -/
theorem DmaFlow.Linked.copy (hlinked : state.Linked config) {before after : List DmaDescriptor}
    {descriptor : DmaDescriptor} (hpending : state.pending = before ++ descriptor :: after) :
    Linked config
      { state with pending := before ++ after, copied := state.copied ++ [descriptor] } := by
  refine { hlinked with
    copies := ?_
    polled_le := ?_ }
  · have hcopies := hlinked.copies
    rw [hpending, List.append_assoc] at hcopies
    have hmoved := (List.perm_append_singleton descriptor
      (before ++ (after ++ state.copied))).trans (List.perm_middle.symm.trans hcopies)
    simpa using hmoved
  · rw [List.length_append]
    exact hlinked.polled_le.trans (Nat.le_add_right _ _)

/-- The sender puts a descriptor into the channel. -/
theorem DmaFlow.Linked.send (hlinked : state.Linked config) {sender : Sender}
    (descriptor : DmaDescriptor)
    (hok : sender.Ok config (state.sent.length + 1) state.addApplied)
    (hopen : state.sender.closed = false) (hopen' : sender.closed = false) :
    Linked config
      { state with
        sender
        sent := state.sent ++ [descriptor]
        channel := state.channel ++ [.item descriptor] } := by
  obtain ⟨items, htransit, hfifo⟩ := hlinked.transit
  refine { hlinked with
    sender := ?_
    transit := ⟨items ++ [descriptor], ?_, ?_⟩ }
  · rwa [List.length_append]
  · rw [htransit, List.append_assoc]
  · rw [hopen] at hfifo
    rw [hopen']
    exact hfifo.put descriptor

theorem DmaFlow.Linked.close (hlinked : state.Linked config) {sender : Sender}
    (hok : sender.Ok config state.sent.length state.addApplied)
    (hopen : state.sender.closed = false) (hclosed : sender.closed = true) :
    Linked config { state with sender, channel := state.channel ++ [.close] } := by
  obtain ⟨items, htransit, hfifo⟩ := hlinked.transit
  refine { hlinked with
    sender := hok
    transit := ⟨items, htransit, ?_⟩ }
  rw [hopen] at hfifo
  rw [hclosed]
  exact hfifo.close

/-- The receiver takes the closing message: every descriptor was submitted before it. -/
theorem DmaFlow.Linked.takeClose (hlinked : state.Linked config) {receiver : Receiver}
    {rest : List Message} (hchannel : state.channel = .close :: rest)
    (hok : receiver.Ok config state.submitted.length state.dmaPolled state.addSubmitted
      state.addPolled)
    (hended : receiver.ended = true) :
    Linked config { state with receiver, channel := rest } := by
  obtain ⟨items, htransit, hfifo⟩ := hlinked.transit
  rw [hchannel] at hfifo
  obtain ⟨-, rfl, hrest⟩ := hfifo.takeClose
  refine { hlinked with
    receiver := hok
    transit := ⟨[], htransit, ?_⟩ }
  rwa [hended]

theorem DmaFlow.Linked.applyAdd (hlinked : state.Linked config)
    (hpending : state.addApplied < state.addSubmitted) :
    Linked config
      { state with counter := state.counter + 1, addApplied := state.addApplied + 1 } := by
  refine { hlinked with
    counter := ?_
    sender := hlinked.sender.mono (Nat.le_succ _)
    applied_le := hpending
    addPolled_le := hlinked.addPolled_le.trans (Nat.le_succ _) }
  rw [hlinked.counter, BitVec.ofNat_add]
  rfl

theorem FlowStep.linked (hstep : FlowStep config state action next)
    (hsmall : config.batchSize.toNat < 2 ^ 64 - 1) (hlinked : state.Linked config) :
    next.Linked config := by
  have hsent := hlinked.applied_le_sent
  have hwindow := hlinked.submitted_le_polled
  have hpolled := hlinked.polled_le.trans hlinked.copied_le
  have haddPolled := hlinked.addPolled_le.trans hlinked.applied_le
  cases hstep with
  | senderTau hstep =>
      exact hlinked.withSender (hstep.ok hsent nofun hlinked.sender) hstep.closed_eq
  | @send _ descriptor hstep =>
      obtain ⟨hopen, hopen'⟩ := hstep.closed_eq
      exact hlinked.send descriptor (hstep.ok hsent nofun hlinked.sender) hopen hopen'
  | read hstep =>
      apply hlinked.withSender (hstep.ok hsent ?_ hlinked.sender) hstep.closed_eq
      -- What the sender reads is the number of add jobs applied so far.
      intro value hvalue
      cases hvalue
      exact hlinked.counter
  | close hstep =>
      obtain ⟨hopen, hclosed⟩ := hstep.closed_eq
      exact hlinked.close (hstep.ok hsent nofun hlinked.sender) hopen hclosed
  | senderReply _ hstep =>
      exact { hlinked.withSender (hstep.ok hsent nofun hlinked.sender)
        hstep.closed_eq with }
  | receiverTau hstep =>
      exact hlinked.withReceiver (hstep.ok hsmall hwindow hpolled haddPolled hlinked.receiver)
        hstep.ended_eq hlinked.polled_le hlinked.applied_le hlinked.addPolled_le
  | submitDma hchannel hstep =>
      obtain ⟨hopen, hopen'⟩ := hstep.ended_eq
      exact hlinked.submitDma hchannel
        (hstep.ok hsmall hwindow hpolled haddPolled hlinked.receiver) hopen hopen'
  | success hchannel hstep =>
      obtain ⟨-, hended⟩ := hstep.ended_eq
      exact hlinked.takeClose hchannel
        (hstep.ok hsmall hwindow hpolled haddPolled hlinked.receiver) hended
  | pollDma hdone hstep =>
      have hnext := (Nat.succ_le_of_lt hdone).trans hlinked.copied_le
      exact hlinked.withReceiver (hstep.ok hsmall hwindow hnext haddPolled hlinked.receiver)
        hstep.ended_eq hdone hlinked.applied_le hlinked.addPolled_le
  | submitAdd hstep =>
      exact hlinked.withReceiver (hstep.ok hsmall hwindow hpolled haddPolled hlinked.receiver)
        hstep.ended_eq hlinked.polled_le (hlinked.applied_le.trans (Nat.le_succ _))
        hlinked.addPolled_le
  | pollAdd hdone hstep =>
      have hnext := (Nat.succ_le_of_lt hdone).trans hlinked.applied_le
      exact hlinked.withReceiver (hstep.ok hsmall hwindow hpolled hnext hlinked.receiver)
        hstep.ended_eq hlinked.polled_le hlinked.applied_le hdone
  | receiverReply hstep =>
      exact { hlinked.withReceiver (hstep.ok hsmall hwindow hpolled haddPolled hlinked.receiver)
        hstep.ended_eq hlinked.polled_le hlinked.applied_le hlinked.addPolled_le with }
  | copy hpending =>
      exact hlinked.copy hpending
  | applyAdd hpending =>
      exact hlinked.applyAdd hpending

theorem flowSystem_linked (hsmall : config.batchSize.toNat < 2 ^ 64 - 1)
    (hreach : (flowSystem config).Reachable state) : state.Linked config := by
  apply hreach.invariant
  · intro state hstart
    rw [hstart]
    exact DmaFlow.init_linked config
  · intro state action next _ hlinked hstep
    exact FlowStep.linked hstep hsmall hlinked

end Linked

/-! ## What the flow control guarantees -/

structure DmaFlow.Controlled (config : ChannelConfig) (state : DmaFlow) : Prop where
  /-- The sync event counts the applied add jobs, and no more than a batch is sent
  beyond it. -/
  counter : state.counter = BitVec.ofNat 64 state.addApplied
  window : state.sent.length ≤ state.addApplied + config.batchSize.toNat
  /-- At the sender's loop head the next `need_to_send` does not underflow, and the
  batch is in flight. -/
  no_underflow : state.sender.pc = .head →
    (state.counter + config.batchSize - state.sender.sendNum).toNat + state.sent.length =
      state.addApplied + config.batchSize.toNat
  head_inflight : state.sender.pc = .head → state.sender.inflightNum = config.batchSize
  /-- The receiver's counters are those of its unpolled jobs, and fit its queues. -/
  inflight : state.receiver.pc ≠ .fill →
    state.receiver.inflightNum.toNat + state.dmaPolled = state.submitted.length ∧
      state.receiver.inflightNum.toNat ≤ config.batchSize.toNat
  seWorkq : state.receiver.pc ≠ .fill →
    state.receiver.seWorkqNum.toNat + state.addPolled = state.addSubmitted ∧
      state.receiver.seWorkqNum.toNat ≤ config.batchSize.toNat
  /-- The blocking wait is for a job that was submitted. -/
  wait : state.receiver.pc = .waitAdd → 1 ≤ state.receiver.seWorkqNum.toNat
  /-- All is done before the final message: every descriptor was copied once. -/
  finished : state.receiver.pc = .reply → state.receiver.inflightNum = 0 ∧
    state.receiver.seWorkqNum = 0 ∧ state.copied.Perm state.sent

section Controlled

variable {config : ChannelConfig} {state : DmaFlow}

theorem DmaFlow.Linked.one_le_seWorkqNum (hlinked : state.Linked config)
    (hpc : state.receiver.pc = .waitAdd) : 1 ≤ state.receiver.seWorkqNum.toNat := by
  have hok := hlinked.receiver
  have hwindow := hlinked.submitted_le_polled
  simp only [Receiver.Ok, hpc] at hok
  obtain ⟨⟨-, hse⟩, hsubmitted, hequal, -⟩ := hok
  unfold Unpolled at hse
  omega

/-- When everything submitted is polled, everything is copied. -/
theorem DmaFlow.Linked.copied_perm (hlinked : state.Linked config)
    (hpolled : state.dmaPolled = state.submitted.length) :
    state.copied.Perm state.submitted := by
  have hcopies := hlinked.copies
  have hle := hlinked.polled_le
  have hlength := hcopies.length_eq
  rw [List.length_append] at hlength
  -- A polled job was done, so none is pending.
  have hnone : state.pending = [] := List.length_eq_zero_iff.mp (by omega)
  rwa [hnone, List.nil_append] at hcopies

theorem DmaFlow.Linked.finished (hlinked : state.Linked config)
    (hpc : state.receiver.pc = .reply) : state.receiver.inflightNum = 0 ∧
      state.receiver.seWorkqNum = 0 ∧ state.copied.Perm state.sent := by
  have hok := hlinked.receiver
  simp only [Receiver.Ok, hpc] at hok
  obtain ⟨⟨hdma, hse⟩, hall, haddAll, -⟩ := hok
  obtain ⟨items, hsent, hfifo⟩ := hlinked.transit
  have hended : state.receiver.ended = true := by simp [Receiver.ended, hpc]
  rw [hended] at hfifo
  -- After the end mark nothing is left in the channel.
  obtain rfl := hfifo.items_of_ended
  refine ⟨hdma.eq_zero_iff.mpr hall, hse.eq_zero_iff.mpr haddAll, ?_⟩
  rw [hsent, List.append_nil]
  exact hlinked.copied_perm hall

/-- For every batch size that the queues allow, in every interleaving of the two
programs, the DMA engine and the sync event. -/
theorem flow_controlled (hbatch : config.batchSize.toNat ≤ maxQueueSize)
    (hreach : (flowSystem config).Reachable state) : state.Controlled config := by
  have hlinked := flowSystem_linked (hbatch.trans_lt (by decide)) hreach
  have hwindow := hlinked.submitted_le_polled
  have hpolled := hlinked.polled_le.trans hlinked.copied_le
  refine ⟨hlinked.counter, hlinked.sender.window, ?_, ?_, ?_, ?_, hlinked.one_le_seWorkqNum,
    hlinked.finished⟩
  · intro hpc
    have hok := hlinked.sender
    simp only [Sender.Ok, hpc] at hok
    rw [hlinked.counter, hok.1]
    exact toNat_needToSend hlinked.applied_le_sent hok.2.1
  · intro hpc
    have hok := hlinked.sender
    simp only [Sender.Ok, hpc] at hok
    exact hok.2.2
  · intro hpc
    have hcount : _ + _ = _ := (hlinked.receiver.counts hpc).1
    exact ⟨hcount, by omega⟩
  · intro hpc
    have hcount : _ + _ = _ := (hlinked.receiver.counts hpc).2
    have hadd := hlinked.receiver.add_le_batch hpolled
    exact ⟨hcount, by omega⟩

end Controlled

/-- Batches of two descriptors. -/
def twoAtOnce : ChannelConfig := ⟨2, 64, 4096, false⟩

/-- Both programs have handled the first batch; the second job was done first and its
add job is applied. -/
def twoAtOnceFilled : DmaFlow where
  sender := ⟨.head, 2, 0, 0, 2, 2, 0⟩
  receiver := ⟨.recv, 2, 1, 1⟩
  channel := []
  replies := []
  sent := [twoAtOnce.descriptor 0 0, twoAtOnce.descriptor 64 0]
  submitted := [twoAtOnce.descriptor 0 0, twoAtOnce.descriptor 64 0]
  pending := [twoAtOnce.descriptor 0 0]
  copied := [twoAtOnce.descriptor 64 0]
  dmaPolled := 1
  counter := 1
  addSubmitted := 1
  addApplied := 1
  addPolled := 0

theorem twoAtOnceFilled_reachable : (flowSystem twoAtOnce).Reachable twoAtOnceFilled := by
  have hrand : (0 : BitVec 64) ≤ int32Max := by decide
  have hstart : (flowSystem twoAtOnce).Reachable DmaFlow.init := .start rfl
  have hfirst := hstart.step (FlowStep.send (SenderStep.fill rfl (by decide) hrand))
  have hsecond := hfirst.step (FlowStep.send (SenderStep.fill rfl (by decide) hrand))
  have hfilled := hsecond.step (FlowStep.senderTau (SenderStep.filled rfl (by decide)))
  have hone := hfilled.step (FlowStep.submitDma rfl (ReceiverStep.fill rfl (by decide) _))
  have htwo := hone.step (FlowStep.submitDma rfl (ReceiverStep.fill rfl (by decide) _))
  have hready := htwo.step (FlowStep.receiverTau (ReceiverStep.filled rfl (by decide)))
  have hcopied := hready.step (FlowStep.copy (List.singleton_append).symm)
  have hpolled := hcopied.step (FlowStep.pollDma (by decide) (ReceiverStep.pollDma rfl))
  have hadded := hpolled.step (FlowStep.submitAdd (ReceiverStep.submitAdd rfl))
  have happlied := hadded.step (FlowStep.applyAdd (by decide))
  exact happlied

/-- A whole transfer up to the receiver's final message: the sender reads the sync
event, sends one descriptor more and stops. -/
theorem twoAtOnce_transferred : ∃ state, (flowSystem twoAtOnce).Reachable state ∧
    state.receiver.pc = .reply ∧ state.sent.length = 3 ∧ state.addApplied = 1 := by
  have hread := twoAtOnceFilled_reachable.step (FlowStep.read (SenderStep.read rfl _))
  have hthird := hread.step (FlowStep.send (SenderStep.send rfl (by decide)
    (show (0 : BitVec 64) ≤ int32Max by decide)))
  have hsent := hthird.step (FlowStep.senderTau (SenderStep.sent rfl (by decide)))
  have hstopped := hsent.step (FlowStep.senderTau (SenderStep.stop rfl))
  have hclosed := hstopped.step (FlowStep.close (SenderStep.close rfl))
  -- The third descriptor is submitted in exchange for the completed add job.
  have hsubmitted := hclosed.step (FlowStep.submitDma rfl (ReceiverStep.recv rfl _))
  have hwaited := hsubmitted.step (FlowStep.pollAdd (by decide) (ReceiverStep.waitAdd rfl))
  have hagain := hwaited.step (FlowStep.receiverTau (ReceiverStep.pollAgain rfl))
  have hended := hagain.step (FlowStep.success rfl (ReceiverStep.recvSuccess rfl))
  have hone := hended.step (FlowStep.copy (List.nil_append _).symm)
  have htwo := hone.step (FlowStep.copy (List.nil_append _).symm)
  have hdrain := htwo.step (FlowStep.pollDma (by decide)
    (ReceiverStep.drainDma rfl (by decide)))
  have hdrained := hdrain.step (FlowStep.pollDma (by decide)
    (ReceiverStep.drainDma rfl (by decide)))
  have hempty := hdrained.step (FlowStep.receiverTau (ReceiverStep.drainedDma rfl rfl))
  have hdone := hempty.step (FlowStep.receiverTau (ReceiverStep.drainedAdd rfl rfl))
  exact ⟨_, hdone, rfl, rfl, rfl⟩

theorem flow_controlled_twoAtOnce : ∃ state, (flowSystem twoAtOnce).Reachable state ∧
    state.receiver.pc = .reply ∧ state.sent.length = 3 ∧ state.addApplied = 1 ∧
    state.Controlled twoAtOnce := by
  obtain ⟨state, hreach, hpc, hlength, happlied⟩ := twoAtOnce_transferred
  exact ⟨state, hreach, hpc, hlength, happlied, flow_controlled (by decide) hreach⟩

end BenchBF3.Channel
