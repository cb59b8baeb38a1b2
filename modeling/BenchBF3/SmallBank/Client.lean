import Mathlib.Algebra.Order.Group.Multiset
import Mathlib.Data.BitVec
import Mathlib.Data.Int.GCD
import Mathlib.Data.Nat.ModEq
import Mathlib.Data.Nat.Prime.Basic
import Mathlib.Tactic.Ring
import BenchBF3.Foundation.System
import BenchBF3.SmallBank.Transition

/-! # Buffer slots of the eRPC client

A client keeps `FLAGS_concurrency` transactions under way. The leader starts
them by pushing GET_DATA messages to the client's queue; every transaction that
ends pushes the next one, with its request id advanced by the concurrency. All
buffers of a request are found at the slot `req_id % kAppMaxBuffer`. A request
is read from its buffer when it is transmitted, and a callback reads its
response from the buffer when it runs, both at any later time.
-/

namespace BenchBF3.SmallBank

open Foundation

def kAppMaxConcurrency : Nat := 256

def kAppMaxBuffer : Nat := kAppMaxConcurrency * 10

/-- The slot of a request: its request buffer, response buffer and `Transition`. -/
def slotOf (reqId : BitVec 32) : Nat := reqId.toNat % kAppMaxBuffer

/-- The contents of a request buffer. -/
inductive Request
  | getData (req : RpcMsgReq GetDataReq)
  | getLock (req : RpcMsgReq GetLockReq)
  | finish (req : RpcMsgReq FinishReq)

def Request.common : Request → CommonReq
  | getData req => req.reqCommon
  | getLock req => req.reqCommon
  | finish req => req.reqCommon

/-- The contents of a response buffer. -/
inductive Response
  | getData (resp : RpcMsgResp GetDataResp)
  | getLock (resp : RpcMsgResp GetLockResp)
  | finish (resp : RpcMsgResp FinishResp)

/-- The server answers a request of each type with a response of that type,
echoing its header; FINISH always succeeds. -/
def Response.Answers (wire : CommonReq) : Response → Prop
  | getData resp => wire.type = .getData ∧ resp.respCommon = ⟨.getData, wire.reqNumber, 0⟩
  | getLock resp => wire.type = .getLock ∧ resp.respCommon = ⟨.getLock, wire.reqNumber, 0⟩
  | finish resp => wire.type = .finish ∧ resp.respCommon = ⟨.finish, wire.reqNumber, 0⟩ ∧
      resp.respControl.success = true

structure Slot where
  req : Request
  resp : Response
  transition : Transition

structure ReqMsg where
  reqId : BitVec 32
  reqType : RpcType
  deriving DecidableEq

/-- How far an enqueued request has come. -/
inductive CallStatus
  | enqueued
  | sent (wire : CommonReq)
  | answered
  deriving DecidableEq

/-- A request handed to `enqueue_request` whose callback has not run. -/
structure Call where
  tag : BitVec 32
  type : RpcType
  status : CallStatus
  deriving DecidableEq

/-- The context of one client, with the number of messages that the leader has
still to push. -/
structure Client where
  reqId : BitVec 32
  remaining : Nat
  queue : List ReqMsg
  outstanding : Multiset Call
  slots : Nat → Slot
  failed : Bool

namespace Client

/-- A handler takes the first message of the queue, fills the slot's request
buffer and enqueues the request. -/
def enqueue (client : Client) (rest : List ReqMsg) (msg : ReqMsg) (req : Request)
    (transition : Transition) : Client :=
  { client with
    queue := rest
    outstanding := ⟨msg.reqId, msg.reqType, .enqueued⟩ ::ₘ client.outstanding
    slots := Function.update client.slots (slotOf msg.reqId)
      { client.slots (slotOf msg.reqId) with req, transition } }

def push (client : Client) (msg : ReqMsg) : Client :=
  { client with queue := client.queue ++ [msg] }

/-- The next transaction of the same chain, after one has ended. -/
def pushNext (concurrency : Nat) (client : Client) (reqId : BitVec 32) : Client :=
  { client with reqId := client.reqId + 1 }.push
    ⟨reqId + BitVec.ofNat 32 concurrency, .getData⟩

/-- The callback of a request, on what the response buffer of its slot holds.
A failed assertion is recorded. -/
def callback (concurrency : Nat) (client : Client) (reqId : BitVec 32) (type : RpcType) : Client :=
  match type, (client.slots (slotOf reqId)).resp with
  | .getData, .getData resp =>
      match callbackGetData reqId resp (client.slots (slotOf reqId)).transition with
      | some transition =>
          { client with
            slots := Function.update client.slots (slotOf reqId)
              { client.slots (slotOf reqId) with transition } }.push ⟨reqId, .getLock⟩
      | none => { client with failed := true }
  | .getLock, .getLock resp =>
      match callbackGetLock reqId resp with
      | some true => client.push ⟨reqId, .finish⟩
      | some false => client.pushNext concurrency reqId
      | none => { client with failed := true }
  | .finish, .finish resp =>
      if callbackFinish reqId resp then client.pushNext concurrency reqId
      else { client with failed := true }
  | _, _ => { client with failed := true }

/-- The callback of this request ends its transaction. -/
def Ends (client : Client) (reqId : BitVec 32) (type : RpcType) : Prop :=
  type = .finish ∨ type = .getLock ∧
    ∃ resp, (client.slots (slotOf reqId)).resp = .getLock resp ∧ resp.respControl.success = false

/-- Request ids of all transactions that have been queued and have not ended. -/
def live (client : Client) : Multiset (BitVec 32) :=
  (client.queue.map ReqMsg.reqId : Multiset (BitVec 32)) + client.outstanding.map Call.tag

/-- Request ids of the transactions in flight: their GET_DATA has been
enqueued and they have not ended. -/
def inFlight (client : Client) : Multiset (BitVec 32) :=
  ((client.queue.filter fun msg => msg.reqType ≠ .getData).map ReqMsg.reqId :
    Multiset (BitVec 32)) + client.outstanding.map Call.tag

/-- Transactions in flight use different slots, and no assertion has failed. -/
structure Safe (client : Client) : Prop where
  slots : (client.inFlight.map slotOf).Nodup
  assertions : client.failed = false

end Client

inductive ClientAction
  | leaderPush
  | handler
  | transmit
  | respond
  | callback (reqId : BitVec 32) (type : RpcType)

/-- Steps of the leader, of the client thread and of the network. A new
`Transition` is drawn at random; buffers may hold anything before they are
written. -/
inductive ClientStep (concurrency : Nat) : Client → ClientAction → Client → Prop
  | leaderPush {client : Client} {remaining : Nat}
      (hremaining : client.remaining = remaining + 1) :
      ClientStep concurrency client .leaderPush
        ({ client with remaining, reqId := client.reqId + 1 }.push ⟨client.reqId, .getData⟩)
  | handlerGetData {client : Client} {reqId : BitVec 32} {rest : List ReqMsg}
      {transmitType : TransmitType} {user1 : Fin numAccounts} {draws : List (Fin numAccounts)}
      {transition : Transition} (hqueue : client.queue = ⟨reqId, .getData⟩ :: rest)
      (hnew : Transition.new reqId transmitType user1 draws = some transition) :
      ClientStep concurrency client .handler (client.enqueue rest ⟨reqId, .getData⟩
        (.getData (handlerGetData reqId transition)) transition)
  | handlerGetLock {client : Client} {reqId : BitVec 32} {rest : List ReqMsg}
      (hqueue : client.queue = ⟨reqId, .getLock⟩ :: rest) :
      ClientStep concurrency client .handler (client.enqueue rest ⟨reqId, .getLock⟩
        (.getLock (handlerGetLock reqId (client.slots (slotOf reqId)).transition))
        (client.slots (slotOf reqId)).transition)
  | handlerFinish {client : Client} {reqId : BitVec 32} {rest : List ReqMsg}
      (stale : PerPart ℚ) (hqueue : client.queue = ⟨reqId, .finish⟩ :: rest) :
      ClientStep concurrency client .handler (client.enqueue rest ⟨reqId, .finish⟩
        (.finish (handlerFinish reqId (client.slots (slotOf reqId)).transition stale))
        (client.slots (slotOf reqId)).transition)
  | transmit {client : Client} {tag : BitVec 32} {type : RpcType} {others : Multiset Call}
      (hcall : client.outstanding = ⟨tag, type, .enqueued⟩ ::ₘ others) :
      ClientStep concurrency client .transmit
        { client with outstanding :=
            ⟨tag, type, .sent (client.slots (slotOf tag)).req.common⟩ ::ₘ others }
  | respond {client : Client} {tag : BitVec 32} {type : RpcType} {wire : CommonReq}
      {others : Multiset Call} {resp : Response}
      (hcall : client.outstanding = ⟨tag, type, .sent wire⟩ ::ₘ others)
      (hanswers : resp.Answers wire) :
      ClientStep concurrency client .respond
        { client with
          outstanding := ⟨tag, type, .answered⟩ ::ₘ others
          slots := Function.update client.slots (slotOf tag)
            { client.slots (slotOf tag) with resp } }
  | callback {client : Client} {tag : BitVec 32} {type : RpcType} {others : Multiset Call}
      (hcall : client.outstanding = ⟨tag, type, .answered⟩ ::ₘ others) :
      ClientStep concurrency client (.callback tag type)
        ({ client with outstanding := others }.callback concurrency tag type)

/-- A client after the start barrier; the leader is about to push. -/
def clientSystem (concurrency : Nat) : System Client ClientAction where
  start client := client.reqId = 1 ∧ client.remaining = concurrency ∧ client.queue = [] ∧
    client.outstanding = 0 ∧ client.failed = false
  step := ClientStep concurrency

/-- No transaction ends before the leader has pushed all its messages. -/
def StartsFirst (client : Client) (action : ClientAction) : Prop :=
  ∀ tag type, action = .callback tag type → client.Ends tag type → client.remaining = 0

/-! ## Chains and their residues -/

/-- The chain that a request id belongs to. -/
def chainOf (concurrency : Nat) (reqId : BitVec 32) : Nat := reqId.toNat % concurrency

section Residues

variable {concurrency : Nat}

/-- Advancing a request id keeps its chain, also across the wrap of 32 bits. -/
theorem chainOf_add (hdvd : concurrency ∣ 2 ^ 32) (reqId : BitVec 32) :
    chainOf concurrency (reqId + BitVec.ofNat 32 concurrency) = chainOf concurrency reqId := by
  simp only [chainOf, BitVec.toNat_add, BitVec.toNat_ofNat, Nat.add_mod_mod]
  rw [Nat.mod_mod_of_dvd _ hdvd, Nat.add_mod_right]

theorem slotOf_mod (hdvd : concurrency ∣ kAppMaxBuffer) (reqId : BitVec 32) :
    slotOf reqId % concurrency = chainOf concurrency reqId :=
  Nat.mod_mod_of_dvd _ hdvd

/-- The chains of the first messages that the leader pushes. -/
def startedChains (concurrency pushed : Nat) : List Nat :=
  (List.range pushed).map fun index => (index + 1) % concurrency

theorem startedChains_nodup {pushed : Nat} (hle : pushed ≤ concurrency) :
    (startedChains concurrency pushed).Nodup := by
  apply List.Nodup.map_on _ List.nodup_range
  intro first hfirst second hsecond heq
  rw [List.mem_range] at hfirst hsecond
  have hmod : first % concurrency = second % concurrency :=
    Nat.ModEq.add_right_cancel' 1 heq
  rwa [Nat.mod_eq_of_lt (by omega), Nat.mod_eq_of_lt (by omega)] at hmod

/-- Request ids on different chains have different slots. -/
theorem slots_nodup_of_chains (hdvd : concurrency ∣ kAppMaxBuffer)
    {ids : Multiset (BitVec 32)} (hchains : (ids.map (chainOf concurrency)).Nodup) :
    (ids.map slotOf).Nodup := by
  apply Multiset.Nodup.of_map (· % concurrency)
  rw [Multiset.map_map]
  simpa only [Function.comp_def, slotOf_mod hdvd] using hchains

end Residues

/-! ## The invariant of ordered starts -/

/-- What the slot of a request holds while the request is outstanding. -/
def Call.Ok (slots : Nat → Slot) (call : Call) : Prop :=
  match call.status with
  | .enqueued => (slots (slotOf call.tag)).req.common = ⟨call.type, call.tag⟩
  | .sent wire => wire = ⟨call.type, call.tag⟩
  | .answered => (slots (slotOf call.tag)).resp.Answers ⟨call.type, call.tag⟩

theorem Call.Ok.congr {slots slots' : Nat → Slot} {call : Call} (hok : call.Ok slots)
    (hreq : (slots' (slotOf call.tag)).req = (slots (slotOf call.tag)).req)
    (hresp : (slots' (slotOf call.tag)).resp = (slots (slotOf call.tag)).resp) :
    call.Ok slots' := by
  unfold Call.Ok at hok ⊢
  rw [hreq, hresp]
  exact hok

/-- The live transactions are on the chains that the leader has started, one on
each; every outstanding request owns its slot. -/
structure Client.Ordered (concurrency : Nat) (client : Client) : Prop where
  chains : ∃ pushed, client.remaining + pushed = concurrency ∧
    (client.remaining ≠ 0 → client.reqId = BitVec.ofNat 32 (pushed + 1)) ∧
    client.live.map (chainOf concurrency) = startedChains concurrency pushed
  calls : ∀ call ∈ client.outstanding, call.Ok client.slots
  assertions : client.failed = false

namespace Client

variable {concurrency : Nat} {client : Client}

theorem Ordered.slots_nodup (hdvd : concurrency ∣ kAppMaxBuffer)
    (hordered : client.Ordered concurrency) : (client.live.map slotOf).Nodup := by
  obtain ⟨pushed, hpushed, -, hchains⟩ := hordered.chains
  apply slots_nodup_of_chains hdvd
  rw [hchains]
  exact Multiset.coe_nodup.mpr (startedChains_nodup (by omega))

theorem Ordered.safe (hdvd : concurrency ∣ kAppMaxBuffer)
    (hordered : client.Ordered concurrency) : client.Safe := by
  refine ⟨Multiset.nodup_of_le ?_ (hordered.slots_nodup hdvd), hordered.assertions⟩
  apply Multiset.map_le_map
  apply Multiset.add_le_add_right
  exact Multiset.coe_le.mpr (List.filter_sublist.map _).subperm

@[simp] theorem live_push (msg : ReqMsg) :
    (client.push msg).live = msg.reqId ::ₘ client.live := by
  simp only [live, push, List.map_append, List.map_cons, List.map_nil]
  rw [← Multiset.coe_add, Multiset.coe_singleton, add_right_comm, Multiset.add_comm,
    Multiset.singleton_add]

theorem live_enqueue {rest : List ReqMsg} {msg : ReqMsg} (req : Request)
    (transition : Transition) (hqueue : client.queue = msg :: rest) :
    (client.enqueue rest msg req transition).live = client.live := by
  simp only [live, enqueue, hqueue, List.map_cons, Multiset.map_cons, ← Multiset.cons_coe,
    Multiset.cons_add, Multiset.add_cons]

theorem live_outstanding {call : Call} {others : Multiset Call}
    (hcall : client.outstanding = call ::ₘ others) :
    client.live = call.tag ::ₘ { client with outstanding := others }.live := by
  simp only [live, hcall, Multiset.map_cons, Multiset.add_cons]

section Callback

variable {reqId : BitVec 32}

/-- `callback_get_data` on a matching response changes only the `Transition`. -/
theorem callback_getData {resp : RpcMsgResp GetDataResp}
    (hresp : (client.slots (slotOf reqId)).resp = .getData resp)
    (hcommon : resp.respCommon = ⟨.getData, reqId, 0⟩) :
    ∃ slots, client.callback concurrency reqId .getData =
        { client with slots }.push ⟨reqId, .getLock⟩ ∧
      ∀ slot, (slots slot).req = (client.slots slot).req ∧
        (slots slot).resp = (client.slots slot).resp := by
  refine ⟨Function.update client.slots (slotOf reqId)
    { client.slots (slotOf reqId) with
      transition :=
        { (client.slots (slotOf reqId)).transition with
          balance := resp.respControl.balance } }, ?_, ?_⟩
  · simp [callback, hresp, callbackGetData, respHeaderOk, hcommon]
  · intro slot
    by_cases heq : slot = slotOf reqId
    · subst slot
      simp
    · simp [Function.update_of_ne heq]

theorem callback_getLock {resp : RpcMsgResp GetLockResp}
    (hresp : (client.slots (slotOf reqId)).resp = .getLock resp)
    (hcommon : resp.respCommon = ⟨.getLock, reqId, 0⟩) :
    client.callback concurrency reqId .getLock =
      if resp.respControl.success then client.push ⟨reqId, .finish⟩
      else client.pushNext concurrency reqId := by
  cases hsuccess : resp.respControl.success <;>
    simp [callback, hresp, callbackGetLock, respHeaderOk, hcommon, hsuccess]

theorem callback_finish {resp : RpcMsgResp FinishResp}
    (hresp : (client.slots (slotOf reqId)).resp = .finish resp)
    (hcommon : resp.respCommon = ⟨.finish, reqId, 0⟩)
    (hsuccess : resp.respControl.success = true) :
    client.callback concurrency reqId .finish = client.pushNext concurrency reqId := by
  simp [callback, hresp, callbackFinish, respHeaderOk, hcommon, hsuccess]

/-- On an answer to its own request no assertion of a callback fails: it
continues the transaction, or ends it and starts the next of its chain. -/
theorem callback_cases {type : RpcType}
    (hanswers : (client.slots (slotOf reqId)).resp.Answers ⟨type, reqId⟩) :
    (∃ slots next, client.callback concurrency reqId type =
        { client with slots }.push ⟨reqId, next⟩ ∧
      ∀ slot, (slots slot).req = (client.slots slot).req ∧
        (slots slot).resp = (client.slots slot).resp) ∨
    client.Ends reqId type ∧
      client.callback concurrency reqId type = client.pushNext concurrency reqId := by
  cases hresp : (client.slots (slotOf reqId)).resp with
  | getData resp =>
      rw [hresp] at hanswers
      obtain ⟨rfl, hcommon⟩ : type = .getData ∧ _ := hanswers
      obtain ⟨slots, hnext, hsame⟩ := callback_getData hresp hcommon
      exact .inl ⟨slots, .getLock, hnext, hsame⟩
  | getLock resp =>
      rw [hresp] at hanswers
      obtain ⟨rfl, hcommon⟩ : type = .getLock ∧ _ := hanswers
      rw [callback_getLock hresp hcommon]
      cases hsuccess : resp.respControl.success with
      | true => exact .inl ⟨client.slots, .finish, rfl, fun slot => ⟨rfl, rfl⟩⟩
      | false => exact .inr ⟨.inr ⟨rfl, resp, hresp, hsuccess⟩, rfl⟩
  | finish resp =>
      rw [hresp] at hanswers
      obtain ⟨rfl, hcommon, hsuccess⟩ : type = .finish ∧ _ ∧ _ := hanswers
      exact .inr ⟨.inl rfl, callback_finish hresp hcommon hsuccess⟩

end Callback

/-- Filling the slot of a live request leaves the other outstanding requests
what they need. -/
theorem Ordered.calls_of_update (hdvd : concurrency ∣ kAppMaxBuffer)
    (hordered : client.Ordered concurrency) {reqId : BitVec 32} {rest : Multiset (BitVec 32)}
    (hlive : client.live = reqId ::ₘ rest) (slot : Slot) {call : Call}
    (hcall : call ∈ client.outstanding) (htag : call.tag ∈ rest) :
    call.Ok (Function.update client.slots (slotOf reqId) slot) := by
  have hnodup := hordered.slots_nodup hdvd
  rw [hlive, Multiset.map_cons, Multiset.nodup_cons] at hnodup
  have hne : slotOf call.tag ≠ slotOf reqId := by
    intro heq
    exact hnodup.1 (heq ▸ Multiset.mem_map_of_mem slotOf htag)
  apply (hordered.calls call hcall).congr
  · rw [Function.update_of_ne hne]
  · rw [Function.update_of_ne hne]

/-- The three handlers fill the slot of the message they take. -/
theorem Ordered.enqueue (hdvd : concurrency ∣ kAppMaxBuffer)
    (hordered : client.Ordered concurrency) {rest : List ReqMsg} {msg : ReqMsg} {req : Request}
    (transition : Transition) (hqueue : client.queue = msg :: rest)
    (hcommon : req.common = ⟨msg.reqType, msg.reqId⟩) :
    (client.enqueue rest msg req transition).Ordered concurrency := by
  refine ⟨?_, ?_, hordered.assertions⟩
  · rw [live_enqueue req transition hqueue]
    exact hordered.chains
  · have hlive : client.live = msg.reqId ::ₘ ((rest.map ReqMsg.reqId : Multiset (BitVec 32)) +
        client.outstanding.map Call.tag) := by
      rw [live, hqueue, List.map_cons, ← Multiset.cons_coe, Multiset.cons_add]
    intro call hcall
    rcases Multiset.mem_cons.mp hcall with rfl | hother
    · simpa [Call.Ok, Client.enqueue] using hcommon
    · apply hordered.calls_of_update hdvd hlive _ hother
      exact Multiset.mem_add.mpr (.inr (Multiset.mem_map_of_mem Call.tag hother))

/-- The leader starts the next chain. -/
theorem Ordered.leaderPush (hpow : concurrency ∣ 2 ^ 32) (hordered : client.Ordered concurrency)
    {remaining : Nat} (hremaining : client.remaining = remaining + 1) :
    ({ client with remaining, reqId := client.reqId + 1 }.push
      ⟨client.reqId, .getData⟩).Ordered concurrency := by
  obtain ⟨pushed, hpushed, hreqId, hchains⟩ := hordered.chains
  -- No transaction has ended yet, so `req_id_` counts the leader's own pushes.
  have hnext := hreqId (by omega)
  refine ⟨⟨pushed + 1, ?_, ?_, ?_⟩, hordered.calls, hordered.assertions⟩
  · change remaining + (pushed + 1) = concurrency
    omega
  · intro _
    change client.reqId + 1 = _
    rw [hnext]
    exact (BitVec.ofNat_add (pushed + 1) 1).symm
  · have hlive : live { client with remaining, reqId := client.reqId + 1 } = client.live := rfl
    have hchain : chainOf concurrency (BitVec.ofNat 32 (pushed + 1)) =
        (pushed + 1) % concurrency := by
      rw [chainOf, BitVec.toNat_ofNat, Nat.mod_mod_of_dvd _ hpow]
    rw [live_push, hlive, Multiset.map_cons, hchains, hnext, hchain, startedChains,
      startedChains, List.range_succ, List.map_append, ← Multiset.coe_add, Multiset.add_comm]
    rfl

section Outstanding

variable {tag : BitVec 32} {type : RpcType} {others : Multiset Call}

/-- A call that changes its status stays on its chain. -/
theorem Ordered.chains_of_status (hordered : client.Ordered concurrency)
    {status status' : CallStatus} (hcall : client.outstanding = ⟨tag, type, status⟩ ::ₘ others)
    (slots : Nat → Slot) :
    ∃ pushed, client.remaining + pushed = concurrency ∧
      (client.remaining ≠ 0 → client.reqId = BitVec.ofNat 32 (pushed + 1)) ∧
      (live { client with outstanding := ⟨tag, type, status'⟩ ::ₘ others, slots }).map
        (chainOf concurrency) = startedChains concurrency pushed := by
  have hchains := hordered.chains
  rw [live_outstanding hcall] at hchains
  rw [live_outstanding rfl]
  exact hchains

/-- The response to a request goes to the slot of that request. -/
theorem Ordered.respond (hdvd : concurrency ∣ kAppMaxBuffer)
    (hordered : client.Ordered concurrency) {wire : CommonReq} {resp : Response}
    (hcall : client.outstanding = ⟨tag, type, .sent wire⟩ ::ₘ others)
    (hanswers : resp.Answers wire) :
    Ordered concurrency
      { client with
        outstanding := ⟨tag, type, .answered⟩ ::ₘ others
        slots := Function.update client.slots (slotOf tag)
          { client.slots (slotOf tag) with resp } } := by
  have hcalls := hordered.calls
  rw [hcall, Multiset.forall_mem_cons] at hcalls
  have hwire : wire = ⟨type, tag⟩ := hcalls.1
  refine ⟨hordered.chains_of_status hcall _, ?_, hordered.assertions⟩
  rw [Multiset.forall_mem_cons]
  constructor
  · rw [hwire] at hanswers
    simpa [Call.Ok] using hanswers
  · -- The other calls are on other chains and so in other slots.
    intro call hother
    apply hordered.calls_of_update hdvd (live_outstanding hcall)
    · rw [hcall]
      exact Multiset.mem_cons_of_mem hother
    · exact Multiset.mem_add.mpr (.inr (Multiset.mem_map_of_mem Call.tag hother))

/-- A callback keeps the chain of its request, with the same transaction or with
the next one. -/
theorem Ordered.callback (hpow : concurrency ∣ 2 ^ 32) (hordered : client.Ordered concurrency)
    (hcall : client.outstanding = ⟨tag, type, .answered⟩ ::ₘ others)
    (hfirst : client.Ends tag type → client.remaining = 0) :
    ({ client with outstanding := others }.callback concurrency tag type).Ordered
      concurrency := by
  have hcalls := hordered.calls
  rw [hcall, Multiset.forall_mem_cons] at hcalls
  obtain ⟨pushed, hpushed, hreqId, hchains⟩ := hordered.chains
  rw [live_outstanding hcall, Multiset.map_cons] at hchains
  rcases @callback_cases concurrency { client with outstanding := others } tag type
    hcalls.1 with ⟨slots, next, hnext, hsame⟩ | ⟨hends, hnext⟩
  · rw [hnext]
    refine ⟨⟨pushed, hpushed, hreqId, ?_⟩, ?_, hordered.assertions⟩
    · rw [live_push, Multiset.map_cons]
      exact hchains
    · intro call hother
      exact (hcalls.2 call hother).congr (hsame _).1 (hsame _).2
  · -- The transaction ends, so the leader no longer needs `req_id_`.
    have hdone := hfirst hends
    rw [hnext]
    refine ⟨⟨pushed, hpushed, fun hnot => (hnot hdone).elim, ?_⟩, hcalls.2,
      hordered.assertions⟩
    rw [pushNext, live_push, Multiset.map_cons, chainOf_add hpow]
    exact hchains

end Outstanding

end Client

/-- With ordered starts every step keeps the chains apart. -/
theorem ClientStep.ordered {concurrency : Nat} (hpow : concurrency ∣ 2 ^ 32)
    (hdvd : concurrency ∣ kAppMaxBuffer) {client next : Client} {action : ClientAction}
    (hstep : ClientStep concurrency client action next) (hfirst : StartsFirst client action)
    (hordered : client.Ordered concurrency) : next.Ordered concurrency := by
  cases hstep with
  | leaderPush hremaining => exact hordered.leaderPush hpow hremaining
  | handlerGetData hqueue hnew => exact hordered.enqueue hdvd _ hqueue rfl
  | handlerGetLock hqueue => exact hordered.enqueue hdvd _ hqueue rfl
  | handlerFinish stale hqueue => exact hordered.enqueue hdvd _ hqueue rfl
  | transmit hcall =>
      have hcalls := hordered.calls
      rw [hcall, Multiset.forall_mem_cons] at hcalls
      refine ⟨hordered.chains_of_status hcall _, ?_, hordered.assertions⟩
      rw [Multiset.forall_mem_cons]
      exact ⟨hcalls.1, hcalls.2⟩
  | respond hcall hanswers => exact hordered.respond hdvd hcall hanswers
  | callback hcall => exact hordered.callback hpow hcall (hfirst _ _ rfl)

theorem clientSystem_ordered {concurrency : Nat} (hpow : concurrency ∣ 2 ^ 32)
    (hdvd : concurrency ∣ kAppMaxBuffer) {client : Client}
    (hreach : ((clientSystem concurrency).restrict StartsFirst).Reachable client) :
    client.Ordered concurrency := by
  apply hreach.invariant
  · intro client hstart
    obtain ⟨hreqId, hremaining, hqueue, houtstanding, hfailed⟩ := hstart
    refine ⟨⟨0, hremaining, fun _ => hreqId, ?_⟩, ?_, hfailed⟩
    · simp [Client.live, hqueue, houtstanding, startedChains]
    · simp [houtstanding]
  · intro state action next _ hinv hstep
    exact ClientStep.ordered hpow hdvd hstep.2 hstep.1 hinv

/-! ## Runs that start and refuse transactions -/

section Runs

variable {concurrency : Nat} {allowed : Client → ClientAction → Prop}

theorem ClientStep.path {client next : Client} {action : ClientAction}
    (hstep : ClientStep concurrency client action next) (hallowed : allowed client action) :
    ((clientSystem concurrency).restrict allowed).Path client next :=
  System.Path.single ⟨hallowed, hstep⟩

variable (hallowed : ∀ client action, (∀ tag type, action ≠ .callback tag type) →
  allowed client action)

include hallowed

/-- The leader pushes a message and its handler runs at once. -/
theorem start_path {client : Client} {remaining : Nat} (hqueue : client.queue = [])
    (hremaining : client.remaining = remaining + 1) :
    ∃ next, ((clientSystem concurrency).restrict allowed).Path client next ∧
      next.queue = [] ∧ next.remaining = remaining ∧ next.reqId = client.reqId + 1 ∧
      next.outstanding = ⟨client.reqId, .getData, .enqueued⟩ ::ₘ client.outstanding ∧
      (next.slots (slotOf client.reqId)).req.common = ⟨.getData, client.reqId⟩ := by
  let pushed : Client := { client with remaining, reqId := client.reqId + 1 }.push
    ⟨client.reqId, .getData⟩
  have hpush : ((clientSystem concurrency).restrict allowed).Path client pushed :=
    (ClientStep.leaderPush hremaining).path (hallowed _ _ nofun)
  have hfront : pushed.queue = [⟨client.reqId, .getData⟩] := by
    change client.queue ++ [_] = [_]
    rw [hqueue]
    rfl
  have hnew : Transition.new client.reqId .balance ⟨0, by decide⟩ [] = some _ := rfl
  have hhandle : ((clientSystem concurrency).restrict allowed).Path pushed _ :=
    (ClientStep.handlerGetData hfront hnew).path (hallowed _ _ nofun)
  refine ⟨_, hpush.trans hhandle, rfl, rfl, rfl, rfl, ?_⟩
  simp [Client.enqueue, Request.common, handlerGetData]

/-- The requests of messages that the leader pushed one after another. -/
def startedCalls (first count : Nat) : Multiset Call :=
  (Multiset.range count).map fun index => ⟨BitVec.ofNat 32 (first + index), .getData, .enqueued⟩

omit hallowed in
theorem startedCalls_succ (first count : Nat) :
    startedCalls first (count + 1) =
      ⟨BitVec.ofNat 32 (first + count), .getData, .enqueued⟩ ::ₘ startedCalls first count := by
  rw [startedCalls, Multiset.range_succ, Multiset.map_cons]
  rfl

/-- The leader pushes several messages. -/
theorem starts_path {client : Client} {first remaining : Nat} (count : Nat)
    (hqueue : client.queue = []) (hreqId : client.reqId = BitVec.ofNat 32 first)
    (hremaining : client.remaining = remaining + count) :
    ∃ next, ((clientSystem concurrency).restrict allowed).Path client next ∧
      next.queue = [] ∧ next.remaining = remaining ∧
      next.reqId = BitVec.ofNat 32 (first + count) ∧
      next.outstanding = startedCalls first count + client.outstanding := by
  induction count generalizing remaining with
  | zero => exact ⟨client, .refl client, hqueue, hremaining, hreqId, by simp [startedCalls]⟩
  | succ count ih =>
      obtain ⟨middle, hpath, hempty, hleft, hid, hcalls⟩ :=
        @ih (remaining + 1) (by omega)
      obtain ⟨next, hstart, hempty', hleft', hid', hcalls', -⟩ :=
        start_path hallowed hempty hleft
      refine ⟨next, hpath.trans hstart, hempty', hleft', ?_, ?_⟩
      · rw [hid', hid]
        exact (BitVec.ofNat_add (first + count) 1).symm
      · rw [hcalls', hcalls, hid, startedCalls_succ, Multiset.cons_add]

/-- An enqueued request is transmitted as it stands in its buffer and answered. -/
theorem answer_path {client : Client} {tag : BitVec 32} {type : RpcType}
    {others : Multiset Call} {resp : Response}
    (hcall : client.outstanding = ⟨tag, type, .enqueued⟩ ::ₘ others)
    (hreq : (client.slots (slotOf tag)).req.common = ⟨type, tag⟩)
    (hanswers : resp.Answers ⟨type, tag⟩) :
    ∃ next, ((clientSystem concurrency).restrict allowed).Path client next ∧
      next.queue = client.queue ∧ next.remaining = client.remaining ∧
      next.reqId = client.reqId ∧ next.outstanding = ⟨tag, type, .answered⟩ ::ₘ others ∧
      (next.slots (slotOf tag)).resp = resp := by
  have htransmit : ((clientSystem concurrency).restrict allowed).Path client
      { client with outstanding := ⟨tag, type, .sent ⟨type, tag⟩⟩ ::ₘ others } := by
    rw [← hreq]
    exact (ClientStep.transmit hcall).path (hallowed _ _ nofun)
  have hrespond : ((clientSystem concurrency).restrict allowed).Path
      { client with outstanding := ⟨tag, type, .sent ⟨type, tag⟩⟩ ::ₘ others } _ :=
    (ClientStep.respond rfl hanswers).path (hallowed _ _ nofun)
  exact ⟨_, htransmit.trans hrespond, rfl, rfl, rfl, rfl, by simp⟩

/-- GET_DATA is answered, its callback queues GET_LOCK, and that is enqueued. -/
theorem read_path {client : Client} {tag : BitVec 32} {others : Multiset Call}
    (hcallback : ∀ state tag type, state.remaining = client.remaining →
      allowed state (.callback tag type))
    (hqueue : client.queue = [])
    (hcall : client.outstanding = ⟨tag, .getData, .enqueued⟩ ::ₘ others)
    (hreq : (client.slots (slotOf tag)).req.common = ⟨.getData, tag⟩) :
    ∃ next, ((clientSystem concurrency).restrict allowed).Path client next ∧
      next.queue = [] ∧ next.remaining = client.remaining ∧ next.reqId = client.reqId ∧
      next.outstanding = ⟨tag, .getLock, .enqueued⟩ ::ₘ others ∧
      (next.slots (slotOf tag)).req.common = ⟨.getLock, tag⟩ := by
  have hanswers : (Response.getData ⟨⟨.getData, tag, 0⟩, ⟨.fill 0⟩⟩).Answers ⟨.getData, tag⟩ :=
    ⟨rfl, rfl⟩
  obtain ⟨answered, hpath, hempty, hleft, hid, hcall', hresp⟩ :=
    @answer_path concurrency allowed hallowed client tag .getData others _ hcall hreq hanswers
  have hcallback' : ((clientSystem concurrency).restrict allowed).Path answered _ :=
    (ClientStep.callback hcall').path (hcallback _ _ _ hleft)
  obtain ⟨slots, hnext, -⟩ := @Client.callback_getData concurrency
    { answered with outstanding := others } tag _ hresp rfl
  rw [hnext] at hcallback'
  have hfront : ({ answered with outstanding := others, slots }.push ⟨tag, .getLock⟩).queue =
      [⟨tag, .getLock⟩] := by
    change answered.queue ++ [_] = [_]
    rw [hempty, hqueue]
    rfl
  have hhandle : ((clientSystem concurrency).restrict allowed).Path
      ({ answered with outstanding := others, slots }.push ⟨tag, .getLock⟩) _ :=
    (ClientStep.handlerGetLock hfront).path (hallowed _ _ nofun)
  refine ⟨_, (hpath.trans hcallback').trans hhandle, rfl, hleft, hid, rfl, ?_⟩
  simp [Client.enqueue, Request.common, handlerGetLock]

/-- GET_LOCK is refused, and the next transaction of the chain is enqueued. -/
theorem retry_path {client : Client} {tag : BitVec 32} {others : Multiset Call}
    (hcallback : ∀ state tag type, state.remaining = client.remaining →
      allowed state (.callback tag type))
    (hqueue : client.queue = [])
    (hcall : client.outstanding = ⟨tag, .getLock, .enqueued⟩ ::ₘ others)
    (hreq : (client.slots (slotOf tag)).req.common = ⟨.getLock, tag⟩) :
    ∃ next, ((clientSystem concurrency).restrict allowed).Path client next ∧
      next.queue = [] ∧ next.remaining = client.remaining ∧ next.reqId = client.reqId + 1 ∧
      next.outstanding =
        ⟨tag + BitVec.ofNat 32 concurrency, .getData, .enqueued⟩ ::ₘ others ∧
      (next.slots (slotOf (tag + BitVec.ofNat 32 concurrency))).req.common =
        ⟨.getData, tag + BitVec.ofNat 32 concurrency⟩ := by
  have hanswers : (Response.getLock ⟨⟨.getLock, tag, 0⟩, ⟨false⟩⟩).Answers ⟨.getLock, tag⟩ :=
    ⟨rfl, rfl⟩
  obtain ⟨answered, hpath, hempty, hleft, hid, hcall', hresp⟩ :=
    @answer_path concurrency allowed hallowed client tag .getLock others _ hcall hreq hanswers
  have hcallback' : ((clientSystem concurrency).restrict allowed).Path answered _ :=
    (ClientStep.callback hcall').path (hcallback _ _ _ hleft)
  rw [@Client.callback_getLock concurrency { answered with outstanding := others } tag _ hresp
    rfl, if_neg (by simp)] at hcallback'
  have hfront : ({ answered with outstanding := others }.pushNext concurrency tag).queue =
      [⟨tag + BitVec.ofNat 32 concurrency, .getData⟩] := by
    change answered.queue ++ [_] = [_]
    rw [hempty, hqueue]
    rfl
  have hnew : Transition.new (tag + BitVec.ofNat 32 concurrency) .balance ⟨0, by decide⟩ [] =
      some _ := rfl
  have hhandle : ((clientSystem concurrency).restrict allowed).Path
      ({ answered with outstanding := others }.pushNext concurrency tag) _ :=
    (ClientStep.handlerGetData hfront hnew).path (hallowed _ _ nofun)
  refine ⟨_, (hpath.trans hcallback').trans hhandle, rfl, hleft, ?_, rfl, ?_⟩
  · simp [Client.enqueue, Client.pushNext, Client.push, hid]
  · simp [Client.enqueue, Request.common, handlerGetData]

/-- One chain is refused any number of times while all other requests wait. -/
theorem chain_path {client : Client} {first : Nat} {others : Multiset Call} (count : Nat)
    (hcallback : ∀ state tag type, state.remaining = client.remaining →
      allowed state (.callback tag type))
    (hqueue : client.queue = [])
    (hcall : client.outstanding = ⟨BitVec.ofNat 32 first, .getData, .enqueued⟩ ::ₘ others)
    (hreq : (client.slots (slotOf (BitVec.ofNat 32 first))).req.common =
      ⟨.getData, BitVec.ofNat 32 first⟩) :
    ∃ next, ((clientSystem concurrency).restrict allowed).Path client next ∧
      next.queue = [] ∧ next.remaining = client.remaining ∧
      next.reqId = client.reqId + BitVec.ofNat 32 count ∧
      next.outstanding =
        ⟨BitVec.ofNat 32 (first + count * concurrency), .getData, .enqueued⟩ ::ₘ others ∧
      (next.slots (slotOf (BitVec.ofNat 32 (first + count * concurrency)))).req.common =
        ⟨.getData, BitVec.ofNat 32 (first + count * concurrency)⟩ := by
  induction count with
  | zero =>
      refine ⟨client, .refl client, hqueue, rfl, by simp, ?_, ?_⟩
      · rw [hcall, Nat.zero_mul, Nat.add_zero]
      · rw [Nat.zero_mul, Nat.add_zero, hreq]
  | succ count ih =>
      obtain ⟨waiting, hpath, hempty, hleft, hid, hcall', hreq'⟩ := ih
      obtain ⟨reading, hread, hempty₁, hleft₁, hid₁, hcall₁, hreq₁⟩ :=
        @read_path concurrency allowed hallowed waiting _ _
          (fun state tag type heq => hcallback state tag type (heq.trans hleft)) hempty hcall' hreq'
      obtain ⟨next, hretry, hempty₂, hleft₂, hid₂, hcall₂, hreq₂⟩ :=
        @retry_path concurrency allowed hallowed reading _ _
          (fun state tag type heq => hcallback state tag type
            (heq.trans (hleft₁.trans hleft))) hempty₁ hcall₁ hreq₁
      have htag : BitVec.ofNat 32 (first + count * concurrency) + BitVec.ofNat 32 concurrency =
          BitVec.ofNat 32 (first + (count + 1) * concurrency) := by
        rw [← BitVec.ofNat_add, Nat.add_assoc, Nat.succ_mul]
      rw [htag] at hcall₂ hreq₂
      refine ⟨next, (hpath.trans hread).trans hretry, hempty₂, hleft₂.trans (hleft₁.trans hleft),
        ?_, hcall₂, hreq₂⟩
      rw [hid₂, hid₁, hid, BitVec.ofNat_add, ← BitVec.add_assoc]
      rfl

end Runs

/-- Two outstanding requests with one slot. -/
theorem Client.not_safe_of_slotOf_eq {client : Client} {call other : Call}
    {others : Multiset Call} (hcall : client.outstanding = call ::ₘ others)
    (hother : other ∈ others) (hslot : slotOf call.tag = slotOf other.tag) : ¬ client.Safe := by
  intro hsafe
  have hnodup := hsafe.slots
  rw [Client.inFlight, hcall, Multiset.map_cons, Multiset.add_cons, Multiset.map_cons,
    Multiset.nodup_cons, hslot] at hnodup
  apply hnodup.1
  apply Multiset.mem_map_of_mem
  exact Multiset.mem_add.mpr (.inr (Multiset.mem_map_of_mem Call.tag hother))

/-- A client before the leader's first push. -/
def freshClient (concurrency : Nat) : Client where
  reqId := 1
  remaining := concurrency
  queue := []
  outstanding := 0
  slots := fun _ => ⟨.getData (handlerGetData 0 depositFirst),
    .getData ⟨⟨.getData, 0, 0⟩, ⟨.fill 0⟩⟩, depositFirst⟩
  failed := false

/-- After ordered starts, the last chain runs ahead to the slot of an earlier
request that is still unanswered. -/
theorem unsafe_of_slotOf_eq {last count waiting : Nat} (hwaiting : waiting < last)
    (hslot : slotOf (BitVec.ofNat 32 (1 + last + count * (last + 1))) =
      slotOf (BitVec.ofNat 32 (1 + waiting))) :
    ∃ client, ((clientSystem (last + 1)).restrict StartsFirst).Reachable client ∧
      ¬ client.Safe := by
  have hallowed : ∀ client action, (∀ tag type, action ≠ .callback tag type) →
      StartsFirst client action := fun _ _ hnot tag type heq => (hnot tag type heq).elim
  have hstart : ((clientSystem (last + 1)).restrict StartsFirst).Reachable
      (freshClient (last + 1)) := .start ⟨rfl, rfl, rfl, rfl, rfl⟩
  obtain ⟨almost, hpath, hempty, hleft, hid, hcalls⟩ :=
    @starts_path (last + 1) StartsFirst hallowed (freshClient (last + 1)) 1 1 last rfl rfl
      (Nat.add_comm last 1)
  obtain ⟨started, hpath', hempty', hleft', -, hcalls', hreq⟩ :=
    @start_path (last + 1) StartsFirst hallowed almost 0 hempty hleft
  rw [hid] at hcalls' hreq
  obtain ⟨next, hchain, -, -, -, hcall, -⟩ :=
    @chain_path (last + 1) StartsFirst hallowed started (1 + last) almost.outstanding count
      (fun state tag type heq _ _ _ _ => heq.trans hleft') hempty' hcalls' hreq
  refine ⟨next, ((hstart.path hpath).path hpath').path hchain, ?_⟩
  have hother : ⟨BitVec.ofNat 32 (1 + waiting), .getData, .enqueued⟩ ∈ almost.outstanding := by
    rw [hcalls]
    apply Multiset.mem_add.mpr
    exact .inl (Multiset.mem_map.mpr ⟨waiting, Multiset.mem_range.mpr hwaiting, rfl⟩)
  exact Client.not_safe_of_slotOf_eq hcall hother hslot

/-- A transaction that ends between two pushes of the leader makes the leader
skip an id, so that its last message repeats one. -/
theorem unsafe_of_early_end (concurrency : Nat) :
    ∃ client, (clientSystem (concurrency + 2)).Reachable client ∧ ¬ client.Safe := by
  have hstart : ((clientSystem (concurrency + 2)).restrict fun _ _ => True).Reachable
      (freshClient (concurrency + 2)) := .start ⟨rfl, rfl, rfl, rfl, rfl⟩
  obtain ⟨started, hpath, hempty, hleft, hid, hcalls, hreq⟩ :=
    @start_path (concurrency + 2) (fun _ _ => True) (fun _ _ _ => trivial)
      (freshClient (concurrency + 2)) (concurrency + 1) rfl rfl
  obtain ⟨ended, hchain, hempty', hleft', hid', hcalls', -⟩ :=
    @chain_path (concurrency + 2) (fun _ _ => True) (fun _ _ _ => trivial) started 1 0 1
      (fun _ _ _ _ => trivial) hempty hcalls hreq
  obtain ⟨almost, hmore, hempty₁, hleft₁, hid₁, hcalls₁⟩ :=
    @starts_path (concurrency + 2) (fun _ _ => True) (fun _ _ _ => trivial) ended 3 1 concurrency
      hempty' (by rw [hid', hid]; rfl) (by rw [hleft', hleft, Nat.add_comm])
  obtain ⟨next, hlast, -, -, -, hcalls₂, -⟩ :=
    @start_path (concurrency + 2) (fun _ _ => True) (fun _ _ _ => trivial) almost 0 hempty₁ hleft₁
  refine ⟨next, ((((hstart.path hpath).path hchain).path hmore).path hlast).of_restrict, ?_⟩
  have hother : ⟨BitVec.ofNat 32 (1 + 1 * (concurrency + 2)), .getData, .enqueued⟩ ∈
      almost.outstanding := by
    rw [hcalls₁, hcalls']
    exact Multiset.mem_add.mpr (.inr (Multiset.mem_cons_self _ 0))
  have hsame : 3 + concurrency = 1 + 1 * (concurrency + 2) := by omega
  rw [hid₁, hsame] at hcalls₂
  exact Client.not_safe_of_slotOf_eq hcalls₂ hother rfl

/-! ## Which concurrencies are safe -/

/-- Multiples of a number reach every multiple of its greatest common divisor
with the modulus, downwards as well. -/
theorem exists_mul_add_gcd_mod {number modulus : Nat} (hlt : number.gcd modulus < modulus) :
    ∃ count, (count * number + number.gcd modulus) % modulus = 0 := by
  obtain ⟨factor, -, hfactor⟩ := Nat.exists_mul_mod_eq_gcd hlt
  refine ⟨factor * (modulus - 1), ?_⟩
  have hmod : number * factor ≡ number.gcd modulus [MOD modulus] := by
    rw [Nat.ModEq, hfactor, Nat.mod_eq_of_lt hlt]
  have hsum : factor * (modulus - 1) * number + number * factor = modulus * (number * factor) := by
    obtain ⟨rest, rfl⟩ : ∃ rest, modulus = rest + 1 := ⟨modulus - 1, by omega⟩
    rw [Nat.add_sub_cancel]
    ring
  calc (factor * (modulus - 1) * number + number.gcd modulus) % modulus
      = (factor * (modulus - 1) * number + number * factor) % modulus :=
        (hmod.symm.add_left (factor * (modulus - 1) * number))
    _ = 0 := by rw [hsum, Nat.mul_mod_right]

/-- A concurrency that is not a power of two lets a chain cross over to another
when the request ids wrap. -/
theorem unsafe_of_not_pow {concurrency : Nat} (hpos : 1 ≤ concurrency)
    (hle : concurrency ≤ kAppMaxConcurrency) (hnot : ¬ ∃ k, concurrency = 2 ^ k) :
    ∃ client, ((clientSystem concurrency).restrict StartsFirst).Reachable client ∧
      ¬ client.Safe := by
  have hdvd := Nat.gcd_dvd_left concurrency (2 ^ 32)
  have hgcd : concurrency.gcd (2 ^ 32) < concurrency := by
    refine lt_of_le_of_ne (Nat.le_of_dvd hpos hdvd) ?_
    intro heq
    have hpow := heq ▸ Nat.gcd_dvd_right concurrency (2 ^ 32)
    obtain ⟨k, -, hk⟩ := (Nat.dvd_prime_pow Nat.prime_two).mp hpow
    exact hnot ⟨k, hk⟩
  have hgcdPos := Nat.gcd_pos_of_pos_left (2 ^ 32) hpos
  have hbound : concurrency < 2 ^ 32 := lt_of_le_of_lt hle (by decide)
  obtain ⟨count, hcount⟩ := exists_mul_add_gcd_mod (hgcd.trans hbound)
  obtain ⟨last, rfl⟩ : ∃ last, concurrency = last + 1 := ⟨concurrency - 1, by omega⟩
  apply @unsafe_of_slotOf_eq last count (last - (last + 1).gcd (2 ^ 32)) (by omega)
  congr 1
  apply BitVec.eq_of_toNat_eq
  simp only [BitVec.toNat_ofNat]
  omega

/-- With a concurrency of one the leader is done before anything can end. -/
theorem startsFirst_of_one {client : Client}
    (hreach : (clientSystem 1).Reachable client) :
    ((clientSystem 1).restrict StartsFirst).Reachable client := by
  induction hreach with
  | start hstart => exact .start hstart
  | @step client next action prior hstep ih =>
      refine ih.step ⟨?_, hstep⟩
      rintro tag type rfl -
      obtain ⟨pushed, hpushed, -, hchains⟩ :=
        (clientSystem_ordered (one_dvd _) (one_dvd _) ih).chains
      cases hstep with
      | callback hcall =>
          -- A callback needs a live transaction, so one push has been made.
          have hcard := congrArg Multiset.card hchains
          rw [Client.live_outstanding hcall] at hcard
          simp only [Multiset.map_cons, Multiset.card_cons, Multiset.coe_card, startedChains,
            List.length_map, List.length_range] at hcard
          omega

/-- Slots are exclusive and no assertion fails in all runs exactly for a
concurrency of one, and in all runs with ordered starts exactly for the powers
of two. -/
theorem safe_iff_concurrency {concurrency : Nat} (hpos : 1 ≤ concurrency)
    (hle : concurrency ≤ kAppMaxConcurrency) :
    ((∀ client, (clientSystem concurrency).Reachable client → client.Safe) ↔
      concurrency = 1) ∧
    ((∀ client, ((clientSystem concurrency).restrict StartsFirst).Reachable client →
      client.Safe) ↔ ∃ k, concurrency = 2 ^ k) := by
  have hordered : ∀ k, concurrency = 2 ^ k → ∀ client,
      ((clientSystem concurrency).restrict StartsFirst).Reachable client → client.Safe := by
    intro k hk client hreach
    have hexp : k ≤ 8 := by
      by_contra hlarge
      have hmono : 2 ^ 9 ≤ 2 ^ k := Nat.pow_le_pow_right (by decide) (by omega)
      rw [← hk] at hmono
      exact absurd (hmono.trans hle) (by decide)
    have hpow : concurrency ∣ 2 ^ 8 := hk ▸ Nat.pow_dvd_pow 2 hexp
    have hdvd : concurrency ∣ kAppMaxBuffer := hpow.trans (by decide)
    exact (clientSystem_ordered (hpow.trans (by decide)) hdvd hreach).safe hdvd
  constructor
  · constructor
    · intro hsafe
      by_contra hne
      obtain ⟨rest, rfl⟩ : ∃ rest, concurrency = rest + 2 := ⟨concurrency - 2, by omega⟩
      obtain ⟨client, hreach, hunsafe⟩ := unsafe_of_early_end rest
      exact hunsafe (hsafe client hreach)
    · rintro rfl client hreach
      exact hordered 0 rfl client (startsFirst_of_one hreach)
  · constructor
    · intro hsafe
      by_contra hnot
      obtain ⟨client, hreach, hunsafe⟩ := unsafe_of_not_pow hpos hle hnot
      exact hunsafe (hsafe client hreach)
    · rintro ⟨k, hk⟩
      exact hordered k hk

/-- For the largest concurrency, a power of two, both equivalences are about
real runs. -/
theorem safe_concurrency_max :
    (¬ ∀ client, (clientSystem kAppMaxConcurrency).Reachable client → client.Safe) ∧
      ∀ client, ((clientSystem kAppMaxConcurrency).restrict StartsFirst).Reachable client →
        client.Safe := by
  obtain ⟨hall, hfirst⟩ := @safe_iff_concurrency kAppMaxConcurrency (by decide) le_rfl
  exact ⟨fun hsafe => absurd (hall.mp hsafe) (by decide), hfirst.mpr ⟨8, by decide⟩⟩

/-- With a concurrency of three, the third chain reaches request 2562 after 853
refusals, in the slot of request 2, which is still unanswered. -/
theorem slot_shared_concurrency_three :
    ∃ client, ((clientSystem 3).restrict StartsFirst).Reachable client ∧ ¬ client.Safe :=
  @unsafe_of_slotOf_eq 2 853 1 (by decide) (by decide)

end BenchBF3.SmallBank
