import Mathlib.Data.BitVec
import BenchBF3.Foundation.Stream
import BenchBF3.Foundation.System

/-! # DMA over the comm channel

`send_dma_reqs` sends descriptors over the channel, and `receive_dma_reqs` runs
a DMA job for each. Every job that the receiver finds completed adds one to a
sync event, which tells the sender how many further descriptors it may send.
Both programs are given as steps of their own variables, each labelled with
what it does to the channel and to the two work queues; the system runs them
together with the DMA engine and the sync event.
-/

namespace BenchBF3.Channel

open Foundation

def maxQueueSize : Nat := 128

def cacheLineSz : BitVec 64 := 64

def int32Max : BitVec 64 := 0x7FFFFFFF

def roundUp (num factor : BitVec 64) : BitVec 64 :=
  num + factor - 1 - (num + factor - 1) % factor

structure ChannelConfig where
  batchSize : BitVec 64
  payload : BitVec 64
  mmapLength : BitVec 64
  isRead : Bool

structure DmaDescriptor where
  localOffset : BitVec 64
  localPayload : BitVec 64
  remoteOffset : BitVec 64
  remotePayload : BitVec 64
  deriving DecidableEq, Repr

/-- A message is a descriptor or `resp_success`, which the receiver tells apart
by their lengths. -/
abbrev Message := Packet DmaDescriptor

/-- The descriptor for a place in the batch buffer and a random number. -/
def ChannelConfig.descriptor (config : ChannelConfig) (start rand : BitVec 64) :
    DmaDescriptor :=
  let randOffset := roundUp rand cacheLineSz % (config.mmapLength - config.payload)
  { localOffset := if config.isRead then randOffset else start
    localPayload := config.payload
    remoteOffset := if config.isRead then start else randOffset
    remotePayload := config.payload }

/-! ## `send_dma_reqs` -/

inductive SenderPc
  | fill
  | head
  | send
  | close
  | waitReply
  | done
  deriving DecidableEq, Repr

/-- The local variables of `send_dma_reqs`; `index` is that of the current loop. -/
structure Sender where
  pc : SenderPc
  index : BitVec 64
  start : BitVec 64
  waitIndex : BitVec 64
  sendNum : BitVec 64
  inflightNum : BitVec 64
  needToSend : BitVec 64

def Sender.init : Sender where
  pc := .fill
  index := 0
  start := 0
  waitIndex := 0
  sendNum := 0
  inflightNum := 0
  needToSend := 0

inductive SenderEvent
  | tau
  | send (descriptor : DmaDescriptor)
  | read (value : BitVec 64)
  | close
  | reply

/-- After the loop over the first batch. -/
def Sender.filled (config : ChannelConfig) (sender : Sender) : Sender :=
  { sender with
    pc := .head
    start := 0
    waitIndex := 0
    sendNum := config.batchSize
    inflightNum := config.batchSize }

/-- The sync event is read and the size of the next round computed. -/
def Sender.read (config : ChannelConfig) (sender : Sender) (value : BitVec 64) : Sender :=
  let needToSend := value + config.batchSize - sender.sendNum
  { sender with
    pc := .send
    index := 0
    waitIndex := value
    needToSend
    inflightNum := sender.inflightNum - needToSend }

/-- One round of the inner loop, after the descriptor was sent. -/
def Sender.sentOne (config : ChannelConfig) (sender : Sender) : Sender :=
  let sendNum := sender.sendNum + 1
  { sender with
    inflightNum := sender.inflightNum + 1
    sendNum
    start := if sendNum % config.batchSize = 0 then 0 else sender.start + config.payload
    index := sender.index + 1 }

inductive SenderStep (config : ChannelConfig) : Sender → SenderEvent → Sender → Prop
  | fill {sender : Sender} (hpc : sender.pc = .fill) (hlt : sender.index < config.batchSize)
      {rand : BitVec 64} (hrand : rand ≤ int32Max) :
      SenderStep config sender (.send (config.descriptor sender.start rand))
        { sender with start := sender.start + config.payload, index := sender.index + 1 }
  | filled {sender : Sender} (hpc : sender.pc = .fill)
      (hge : ¬ sender.index < config.batchSize) :
      SenderStep config sender .tau (sender.filled config)
  | read {sender : Sender} (hpc : sender.pc = .head) (value : BitVec 64) :
      SenderStep config sender (.read value) (sender.read config value)
  | stop {sender : Sender} (hpc : sender.pc = .head) :
      SenderStep config sender .tau { sender with pc := .close }
  | send {sender : Sender} (hpc : sender.pc = .send) (hlt : sender.index < sender.needToSend)
      {rand : BitVec 64} (hrand : rand ≤ int32Max) :
      SenderStep config sender (.send (config.descriptor sender.start rand))
        (sender.sentOne config)
  | sent {sender : Sender} (hpc : sender.pc = .send)
      (hge : ¬ sender.index < sender.needToSend) :
      SenderStep config sender .tau { sender with pc := .head }
  | close {sender : Sender} (hpc : sender.pc = .close) :
      SenderStep config sender .close { sender with pc := .waitReply }
  | reply {sender : Sender} (hpc : sender.pc = .waitReply) :
      SenderStep config sender .reply { sender with pc := .done }

/-! ## `receive_dma_reqs` -/

inductive ReceiverPc
  | fill
  | pollDma
  | submitAdd
  | recv
  | waitAdd
  | drainDma
  | drainAdd
  | reply
  | done
  deriving DecidableEq, Repr

/-- The local variables of `receive_dma_reqs`; `index` is that of the first loop. -/
structure Receiver where
  pc : ReceiverPc
  index : BitVec 64
  inflightNum : BitVec 64
  seWorkqNum : BitVec 64

def Receiver.init : Receiver where
  pc := .fill
  index := 0
  inflightNum := 0
  seWorkqNum := 0

inductive ReceiverEvent
  | tau
  | submitDma (descriptor : DmaDescriptor)
  | pollDma
  | submitAdd
  | pollAdd
  | success
  | reply

/-- A `DOCA_ERROR_AGAIN` is possible at any time where the program does not block. -/
inductive ReceiverStep (config : ChannelConfig) : Receiver → ReceiverEvent → Receiver → Prop
  | fill {receiver : Receiver} (hpc : receiver.pc = .fill)
      (hlt : receiver.index < config.batchSize) (descriptor : DmaDescriptor) :
      ReceiverStep config receiver (.submitDma descriptor)
        { receiver with index := receiver.index + 1 }
  | filled {receiver : Receiver} (hpc : receiver.pc = .fill)
      (hge : ¬ receiver.index < config.batchSize) :
      ReceiverStep config receiver .tau
        { receiver with pc := .pollDma, inflightNum := config.batchSize, seWorkqNum := 0 }
  | pollDma {receiver : Receiver} (hpc : receiver.pc = .pollDma) :
      ReceiverStep config receiver .pollDma
        { receiver with pc := .submitAdd, inflightNum := receiver.inflightNum - 1 }
  | pollAgain {receiver : Receiver} (hpc : receiver.pc = .pollDma) :
      ReceiverStep config receiver .tau { receiver with pc := .recv }
  | submitAdd {receiver : Receiver} (hpc : receiver.pc = .submitAdd) :
      ReceiverStep config receiver .submitAdd
        { receiver with pc := .recv, seWorkqNum := receiver.seWorkqNum + 1 }
  | recv {receiver : Receiver} (hpc : receiver.pc = .recv) (descriptor : DmaDescriptor) :
      ReceiverStep config receiver (.submitDma descriptor)
        { receiver with pc := .waitAdd, inflightNum := receiver.inflightNum + 1 }
  | recvAgain {receiver : Receiver} (hpc : receiver.pc = .recv) :
      ReceiverStep config receiver .tau { receiver with pc := .pollDma }
  | recvSuccess {receiver : Receiver} (hpc : receiver.pc = .recv) :
      ReceiverStep config receiver .success { receiver with pc := .drainDma }
  | waitAdd {receiver : Receiver} (hpc : receiver.pc = .waitAdd) :
      ReceiverStep config receiver .pollAdd
        { receiver with pc := .pollDma, seWorkqNum := receiver.seWorkqNum - 1 }
  | drainDma {receiver : Receiver} (hpc : receiver.pc = .drainDma)
      (hne : receiver.inflightNum ≠ 0) :
      ReceiverStep config receiver .pollDma
        { receiver with inflightNum := receiver.inflightNum - 1 }
  | drainedDma {receiver : Receiver} (hpc : receiver.pc = .drainDma)
      (hzero : receiver.inflightNum = 0) :
      ReceiverStep config receiver .tau { receiver with pc := .drainAdd }
  | drainAdd {receiver : Receiver} (hpc : receiver.pc = .drainAdd)
      (hne : receiver.seWorkqNum ≠ 0) :
      ReceiverStep config receiver .pollAdd
        { receiver with seWorkqNum := receiver.seWorkqNum - 1 }
  | drainedAdd {receiver : Receiver} (hpc : receiver.pc = .drainAdd)
      (hzero : receiver.seWorkqNum = 0) :
      ReceiverStep config receiver .tau { receiver with pc := .reply }
  | reply {receiver : Receiver} (hpc : receiver.pc = .reply) :
      ReceiverStep config receiver .reply { receiver with pc := .done }

/-! ## Both programs together -/

/-- The two programs, the channel in both directions, the DMA jobs and the
sync event with its add jobs. What was sent, submitted and copied is kept in
order; completions are counted when they are polled. -/
structure DmaFlow where
  sender : Sender
  receiver : Receiver
  channel : List Message
  replies : List Message
  sent : List DmaDescriptor
  submitted : List DmaDescriptor
  pending : List DmaDescriptor
  copied : List DmaDescriptor
  dmaPolled : Nat
  counter : BitVec 64
  addSubmitted : Nat
  addApplied : Nat
  addPolled : Nat

def DmaFlow.init : DmaFlow where
  sender := .init
  receiver := .init
  channel := []
  replies := []
  sent := []
  submitted := []
  pending := []
  copied := []
  dmaPolled := 0
  counter := 0
  addSubmitted := 0
  addApplied := 0
  addPolled := 0

inductive FlowAction
  | sender (event : SenderEvent)
  | receiver (event : ReceiverEvent)
  | copy
  | applyAdd

/-- A completion is polled only after its job was done; DMA jobs and add jobs are
done in any order, each once. -/
inductive FlowStep (config : ChannelConfig) : DmaFlow → FlowAction → DmaFlow → Prop
  | senderTau {state : DmaFlow} {sender : Sender}
      (hstep : SenderStep config state.sender .tau sender) :
      FlowStep config state (.sender .tau) { state with sender }
  | send {state : DmaFlow} {sender : Sender} {descriptor : DmaDescriptor}
      (hstep : SenderStep config state.sender (.send descriptor) sender) :
      FlowStep config state (.sender (.send descriptor))
        { state with
          sender
          channel := state.channel ++ [.item descriptor]
          sent := state.sent ++ [descriptor] }
  | read {state : DmaFlow} {sender : Sender}
      (hstep : SenderStep config state.sender (.read state.counter) sender) :
      FlowStep config state (.sender (.read state.counter)) { state with sender }
  | close {state : DmaFlow} {sender : Sender}
      (hstep : SenderStep config state.sender .close sender) :
      FlowStep config state (.sender .close)
        { state with sender, channel := state.channel ++ [.close] }
  | senderReply {state : DmaFlow} {sender : Sender} {rest : List Message}
      (hreplies : state.replies = .close :: rest)
      (hstep : SenderStep config state.sender .reply sender) :
      FlowStep config state (.sender .reply) { state with sender, replies := rest }
  | receiverTau {state : DmaFlow} {receiver : Receiver}
      (hstep : ReceiverStep config state.receiver .tau receiver) :
      FlowStep config state (.receiver .tau) { state with receiver }
  | submitDma {state : DmaFlow} {receiver : Receiver} {descriptor : DmaDescriptor}
      {rest : List Message} (hchannel : state.channel = .item descriptor :: rest)
      (hstep : ReceiverStep config state.receiver (.submitDma descriptor) receiver) :
      FlowStep config state (.receiver (.submitDma descriptor))
        { state with
          receiver
          channel := rest
          submitted := state.submitted ++ [descriptor]
          pending := state.pending ++ [descriptor] }
  | success {state : DmaFlow} {receiver : Receiver} {rest : List Message}
      (hchannel : state.channel = .close :: rest)
      (hstep : ReceiverStep config state.receiver .success receiver) :
      FlowStep config state (.receiver .success) { state with receiver, channel := rest }
  | pollDma {state : DmaFlow} {receiver : Receiver}
      (hdone : state.dmaPolled < state.copied.length)
      (hstep : ReceiverStep config state.receiver .pollDma receiver) :
      FlowStep config state (.receiver .pollDma)
        { state with receiver, dmaPolled := state.dmaPolled + 1 }
  | submitAdd {state : DmaFlow} {receiver : Receiver}
      (hstep : ReceiverStep config state.receiver .submitAdd receiver) :
      FlowStep config state (.receiver .submitAdd)
        { state with receiver, addSubmitted := state.addSubmitted + 1 }
  | pollAdd {state : DmaFlow} {receiver : Receiver} (hdone : state.addPolled < state.addApplied)
      (hstep : ReceiverStep config state.receiver .pollAdd receiver) :
      FlowStep config state (.receiver .pollAdd)
        { state with receiver, addPolled := state.addPolled + 1 }
  | receiverReply {state : DmaFlow} {receiver : Receiver}
      (hstep : ReceiverStep config state.receiver .reply receiver) :
      FlowStep config state (.receiver .reply)
        { state with receiver, replies := state.replies ++ [.close] }
  | copy {state : DmaFlow} {before after : List DmaDescriptor} {descriptor : DmaDescriptor}
      (hpending : state.pending = before ++ descriptor :: after) :
      FlowStep config state .copy
        { state with pending := before ++ after, copied := state.copied ++ [descriptor] }
  | applyAdd {state : DmaFlow} (hpending : state.addApplied < state.addSubmitted) :
      FlowStep config state .applyAdd
        { state with counter := state.counter + 1, addApplied := state.addApplied + 1 }

def flowSystem (config : ChannelConfig) : System DmaFlow FlowAction where
  start state := state = DmaFlow.init
  step := FlowStep config

end BenchBF3.Channel
