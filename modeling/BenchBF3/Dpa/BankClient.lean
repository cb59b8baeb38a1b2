import BenchBF3.Dpa.BankServer
import BenchBF3.Dpa.SendQueue

/-! # The DPA SmallBank client

The client runs 64 transactions at a time, one in each slot of `transitions`.
The response to its PING starts them all; from then on `process_packet` turns
each response into the next request of the slot that its request number names.
Requests are written to send buffers and posted to the send queue; what has
been posted, for which slot and in reaction to what, is kept as a log.
-/

namespace BenchBF3.Dpa

open Foundation
open SmallBank (Part PerPart Users TransmitType)

def concurrency : Nat := 64

def numAccounts : Nat := 1000000

def writeLock : UInt8 := 2

/-! ## Transactions -/

structure Transition extends LockFlags where
  changed : PerPart UInt8
  reqId : BitVec 32
  transmitType : TransmitType
  balance : PerPart (BitVec 64)

/-- Static memory starts as zero. -/
def Transition.zero : Transition where
  user1Id := 0
  user2Id := 0
  lock := .fill 0
  changed := .fill 0
  reqId := 0
  transmitType := .amalgamate
  balance := .fill 0

/-- One reading of `__dpa_thread_inst_ret` and one of `__dpa_thread_cycles`. -/
structure Draw where
  instRet : Nat
  cycles : Nat

/-- The changed flags are only ever set. -/
def initTransition (trans : Transition) (index : Nat) (draw : Draw) : Transition :=
  let trans := { trans with
    user1Id := 0, user2Id := 0, lock := .fill 0, reqId := BitVec.ofNat 32 index }
  let user1Id := draw.instRet % numAccounts
  let user2Id := draw.cycles % numAccounts
  if index * 100 < 15 * concurrency then
    { trans with
      transmitType := .amalgamate, user1Id, user2Id
      lock := { trans.lock with user1Checking := writeLock, user2Saving := writeLock }
      changed := { trans.changed with user1Checking := 1, user2Saving := 1 } }
  else if index * 100 < 30 * concurrency then
    { trans with transmitType := .balance, user1Id, user2Id := user1Id }
  else if index * 100 < 45 * concurrency then
    { trans with
      transmitType := .depositChecking, user1Id, user2Id := user1Id
      lock := { trans.lock with user1Checking := writeLock }
      changed := { trans.changed with user1Checking := 1 } }
  else if index * 100 < 70 * concurrency then
    { trans with
      transmitType := .sendPayment, user1Id, user2Id
      lock := { trans.lock with user1Checking := writeLock, user2Checking := writeLock }
      changed := { trans.changed with user1Checking := 1, user2Checking := 1 } }
  else if index * 100 < 85 * concurrency then
    { trans with
      transmitType := .transactSavings, user1Id
      lock := { trans.lock with user1Saving := writeLock }
      changed := { trans.changed with user1Saving := 1 } }
  else
    { trans with
      transmitType := .writeCheck, user1Id
      lock := { trans.lock with user1Checking := writeLock }
      changed := { trans.changed with user1Checking := 1 } }

/-- The next transaction of a slot: new accounts, the same flags, the next number. -/
def Transition.redraw (trans : Transition) (draw : Draw) (reqNumber : BitVec 32) : Transition :=
  { trans with
    user1Id := draw.instRet % numAccounts
    user2Id := draw.cycles % numAccounts
    reqId := reqNumber + BitVec.ofNat 32 concurrency }

def reloadTransition (trans : Transition) : GetDataReq where
  toUsers := trans.toUsers
  reqNumber := trans.reqId
  get := trans.lock

/-! ## Requests, responses and the send path -/

inductive ReqMsg
  | ping
  | getData (req : GetDataReq)
  | getLock (req : GetLockReq)
  | finish (req : FinishReq)

/-- The ping does not set its number. -/
def ReqMsg.reqNumber : ReqMsg → Option (BitVec 32)
  | .ping => none
  | .getData req => some req.reqNumber
  | .getLock req => some req.reqNumber
  | .finish req => some req.reqNumber

/-- `sizeof` of the request's structure. -/
def ReqMsg.size : ReqMsg → Nat
  | .ping => 16
  | .getData _ => 32
  | .getLock _ => 32
  | .finish _ => 64

inductive RespMsg
  | ping
  | getData (resp : GetDataResp)
  | getLock (resp : GetLockResp)
  | finish (resp : FinishResp)

/-- A response of the request's type that carries its number. -/
def RespMsg.Answers : RespMsg → ReqMsg → Prop
  | .ping, .ping => True
  | .getData resp, .getData req => resp.reqNumber = req.reqNumber
  | .getLock resp, .getLock req => resp.reqNumber = req.reqNumber
  | .finish resp, .finish req => resp.reqNumber = req.reqNumber
  | _, _ => False

/-- A posted request, with the slot it was made for and the response that made
the client post it; the ping has neither. -/
structure Posted where
  slot : Option Nat
  cause : Option RespMsg
  message : ReqMsg

/-- `device_context` and the send buffers, by address. -/
structure BankClient where
  transitions : Nat → Transition
  dtCtx : DtCtx
  sq : SendQueue (BitVec 64)
  sqDb : BitVec 32
  memory : BitVec 64 → ReqMsg
  posted : List Posted

namespace BankClient

def logSqRingDepth : Nat := 7

def logWqDataEntryBsize : Nat := 10

/-- Writes a request to the next send buffer and prepares its packet. -/
def enqueue (client : BankClient) (entry : Posted) : BankClient :=
  let (sqData, dtCtx) := client.dtCtx.getNextSendBuf logWqDataEntryBsize
  { client with
    dtCtx
    memory := Function.update client.memory sqData entry.message
    sq := client.sq.prepareSendPacket sqData (BitVec.ofNat 32 (14 + entry.message.size))
    posted := client.posted ++ [entry] }

/-- `finish_send_packet`. -/
def ring (client : BankClient) : BankClient :=
  let (sqDb, sq) := client.sq.finishSendPacket
  { client with sq, sqDb }

def ringBatch (client : BankClient) (batchSize : Nat) : BankClient :=
  let (sqDb, sq) := client.sq.finishSendPacketBatch batchSize
  { client with sq, sqDb }

/-- `dpa_small_bank_client_device_init`. -/
def deviceInit (sqTxBuff : BitVec 64) (sqNumber lkey : BitVec 32)
    (sqRing : Nat → SqeSeg (BitVec 64)) (memory : BitVec 64 → ReqMsg) : BankClient where
  transitions := fun _ => Transition.zero
  dtCtx := ⟨sqTxBuff, 0, ringMask logSqRingDepth⟩
  sq := SendQueue.initSendSq ⟨initSq logSqRingDepth sqNumber, sqRing⟩ (2 ^ logSqRingDepth) lkey
  sqDb := 0
  memory
  posted := []

/-- `dpa_small_bank_client_device_ping_packet`: each send buffer is taken once for
its Ethernet header, then the ping is sent. -/
def pingPacket (client : BankClient) : BankClient :=
  let dtCtx := (List.range (2 ^ logSqRingDepth)).foldl
    (fun dtCtx _ => (dtCtx.getNextSendBuf logWqDataEntryBsize).2) client.dtCtx
  ({ client with dtCtx }.enqueue ⟨none, none, .ping⟩).ring

/-! ## Packet processing -/

/-- The slot's transaction is stored and its next request sent. -/
def reply (client : BankClient) (slot : Nat) (trans : Transition) (cause : RespMsg)
    (message : ReqMsg) : BankClient :=
  ({ client with transitions := Function.update client.transitions slot trans }.enqueue
    ⟨some slot, some cause, message⟩).ring

/-- One round of the PING case's first loop. -/
def startSlot (draws : Nat → Draw) (client : BankClient) (index : Nat) : BankClient :=
  { client with
    transitions := Function.update client.transitions index
      (initTransition (client.transitions index) index (draws index)) }

/-- One round of its second loop. -/
def loadSlot (client : BankClient) (index : Nat) : BankClient :=
  client.enqueue ⟨some index, some .ping, .getData (reloadTransition (client.transitions index))⟩

def processPing (draws : Nat → Draw) (client : BankClient) : BankClient :=
  let client := (List.range concurrency).foldl (startSlot draws) client
  let client := (List.range concurrency).foldl loadSlot client
  client.ringBatch concurrency

def processGetData (client : BankClient) (resp : GetDataResp) : BankClient :=
  let slot := resp.reqNumber.toNat % concurrency
  let trans := { client.transitions slot with balance := resp.balance }
  client.reply slot trans (.getData resp)
    (.getLock { toLockFlags := trans.toLockFlags, reqNumber := resp.reqNumber })

/-- The balances of a FINISH are not written: they are what the buffer held. -/
def processGetLock (draw : Draw) (stale : PerPart (BitVec 64)) (client : BankClient)
    (resp : GetLockResp) : BankClient :=
  let slot := resp.reqNumber.toNat % concurrency
  let trans := client.transitions slot
  if resp.success then
    client.reply slot trans (.getLock resp) (.finish
      { toUsers := trans.toUsers
        reqNumber := resp.reqNumber
        balance := stale
        changed := trans.changed
        unlock := trans.lock })
  else
    let trans := trans.redraw draw resp.reqNumber
    client.reply slot trans (.getLock resp) (.getData (reloadTransition trans))

def processFinish (draw : Draw) (client : BankClient) (resp : FinishResp) : BankClient :=
  let slot := resp.reqNumber.toNat % concurrency
  let trans := (client.transitions slot).redraw draw resp.reqNumber
  client.reply slot trans (.finish resp) (.getData (reloadTransition trans))

/-- `process_packet`; the counters are read up to once for each slot. -/
def processPacket (draws : Nat → Draw) (stale : PerPart (BitVec 64)) (client : BankClient) :
    RespMsg → BankClient
  | .ping => client.processPing draws
  | .getData resp => client.processGetData resp
  | .getLock resp => client.processGetLock (draws 0) stale resp
  | .finish resp => client.processFinish (draws 0) resp

end BankClient

/-! ## One transaction -/

/-- The order of a slot's requests: after GET_DATA comes GET_LOCK; a granted
GET_LOCK is followed by a FINISH for the same accounts and locks that changes
none but locked records, a refused one by a new GET_DATA; after FINISH comes a
new GET_DATA. The earlier request was answered with the later one's cause. -/
def Follows (earlier later : Posted) : Prop :=
  ∃ resp, later.cause = some resp ∧ resp.Answers earlier.message ∧
    match earlier.message, resp with
    | .getData _, _ => ∃ req, later.message = .getLock req
    | .getLock granted, .getLock resp =>
        if resp.success then
          ∃ req, later.message = .finish req ∧ req.toUsers = granted.toUsers ∧
            req.unlock = granted.lock ∧
            ∀ part, req.changed.get part ≠ 0 → req.unlock.get part ≠ 0
        else ∃ req, later.message = .getData req
    | .finish _, _ => ∃ req, later.message = .getData req
    | _, _ => False

/-- The transaction of a slot is the one whose request is outstanding. -/
structure Transition.Awaits (trans : Transition) (slot : Nat) (message : ReqMsg) : Prop where
  reqNumber : message.reqNumber = some trans.reqId
  congruent : trans.reqId.toNat % concurrency = slot
  locks : ∀ req, message = .getLock req → req.toLockFlags = trans.toLockFlags
  changed : ∀ part, trans.changed.get part ≠ 0 → trans.lock.get part ≠ 0

theorem initTransition_changed (trans : Transition) (index : Nat) (draw : Draw)
    (hzero : trans.changed = .fill 0) (part : Part) :
    (initTransition trans index draw).changed.get part ≠ 0 →
      (initTransition trans index draw).lock.get part ≠ 0 := by
  unfold initTransition
  simp only [hzero]
  cases part <;> (repeat' split) <;> simp [PerPart.get, PerPart.fill, writeLock]

theorem initTransition_reqId (trans : Transition) (index : Nat) (draw : Draw) :
    (initTransition trans index draw).reqId = BitVec.ofNat 32 index := by
  unfold initTransition
  (repeat' split) <;> rfl

theorem initTransition_awaits {trans : Transition} {index : Nat} (draw : Draw)
    (hzero : trans.changed = .fill 0) (hindex : index < concurrency) :
    (initTransition trans index draw).Awaits index
      (.getData (reloadTransition (initTransition trans index draw))) where
  reqNumber := rfl
  congruent := by
    rw [initTransition_reqId, BitVec.toNat_ofNat]
    simp only [concurrency] at hindex ⊢
    omega
  locks := nofun
  changed := initTransition_changed trans index draw hzero

section Awaits

variable {trans : Transition} {slot : Nat} {message : ReqMsg}

/-- The next number stays in the slot, also when it wraps. -/
theorem toNat_add_concurrency (reqNumber : BitVec 32) :
    (reqNumber + BitVec.ofNat 32 concurrency).toNat % concurrency =
      reqNumber.toNat % concurrency := by
  simp only [BitVec.toNat_add, concurrency]
  have hlt := reqNumber.isLt
  simp only [BitVec.toNat_ofNat]
  omega

theorem Transition.Awaits.redraw (hawaits : trans.Awaits slot message) (draw : Draw)
    {reqNumber : BitVec 32} (hreq : reqNumber = trans.reqId) :
    (trans.redraw draw reqNumber).Awaits slot
      (.getData (reloadTransition (trans.redraw draw reqNumber))) where
  reqNumber := rfl
  congruent := by
    rw [← hawaits.congruent, ← hreq]
    exact toNat_add_concurrency reqNumber
  locks := nofun
  changed := hawaits.changed

/-- A response to the outstanding request of a slot makes the client send the
next request of that slot, and of no other. -/
theorem BankClient.processPacket_reply {client : BankClient} {earlier : Posted} {resp : RespMsg}
    (hawaits : (client.transitions slot).Awaits slot earlier.message)
    (hanswers : resp.Answers earlier.message) (draws : Nat → Draw)
    (stale : PerPart (BitVec 64)) :
    ∃ trans message, client.processPacket draws stale resp =
        client.reply slot trans resp message ∧
      Follows earlier ⟨some slot, some resp, message⟩ ∧ trans.Awaits slot message := by
  obtain ⟨earlierSlot, cause, message⟩ := earlier
  have hnumber := hawaits.reqNumber
  have hslot := hawaits.congruent
  -- The pairs that are left have one type, so that the number names the slot.
  cases message <;> cases resp <;>
    simp only [RespMsg.Answers, ReqMsg.reqNumber, Option.some.injEq, reduceCtorEq]
      at hnumber hanswers
  case getData.getData req resp =>
    have hreq := hanswers.trans hnumber
    obtain rfl : resp.reqNumber.toNat % concurrency = slot := hreq ▸ hslot
    refine ⟨_, _, rfl, ⟨_, rfl, hanswers, _, rfl⟩, ?_⟩
    exact ⟨congrArg some hreq, hslot, fun _ heq => by cases heq; rfl, hawaits.changed⟩
  case getLock.getLock req resp =>
    have hreq := hanswers.trans hnumber
    obtain rfl : resp.reqNumber.toNat % concurrency = slot := hreq ▸ hslot
    have hlocks := hawaits.locks req rfl
    simp only [processPacket, processGetLock]
    cases hsuccess : resp.success with
    | true =>
        refine ⟨_, _, rfl, ⟨_, rfl, hanswers, ?_⟩, ?_⟩
        · simp only [hsuccess, if_true]
          exact ⟨_, rfl, congrArg LockFlags.toUsers hlocks.symm,
            congrArg LockFlags.lock hlocks.symm, hawaits.changed⟩
        · exact ⟨congrArg some hreq, hslot, nofun, hawaits.changed⟩
    | false =>
        refine ⟨_, _, rfl, ⟨_, rfl, hanswers, ?_⟩, hawaits.redraw (draws 0) hreq⟩
        simp only [hsuccess]
        exact ⟨_, rfl⟩
  case finish.finish req resp =>
    have hreq := hanswers.trans hnumber
    obtain rfl : resp.reqNumber.toNat % concurrency = slot := hreq ▸ hslot
    exact ⟨_, _, rfl, ⟨_, rfl, hanswers, _, rfl⟩, hawaits.redraw (draws 0) hreq⟩

end Awaits

end BenchBF3.Dpa
