import BenchBF3.Dpa.RoundTrip

/-! # Many sending threads

`dpa_send_mt` sends from many threads. A thread adds its index to the last byte of
`SRC_ADDR`; the host adds the same index to the number `TARGET_MAC` and makes flow
rules of the sum. The two agree as long as the byte does not overflow.

The handlers run already when the host calls `dpa_send_mt_deivce_first_packet` to
prepare the packets, and nobody waits for the NIC. So a step is a single assignment:
to the counter that handler and call share, or to a buffer, which the NIC may be
sending from or receiving into.
-/

namespace BenchBF3.Dpa.SendMt

open Foundation

/-! ## Addresses and flow rules -/

def maxThreads : Nat := 190

def targetMac : BitVec 64 := 0x020101010101

def dstAddr : List (BitVec 8) := [0xA0, 0x88, 0xC2, 0x32, 0x04, 0x30]

/-- `SRC_ADDR`, with the index of the thread added to its last byte. -/
def threadAddr (threadIndex : BitVec 8) : List (BitVec 8) := srcAddr.modify 5 (· + threadIndex)

/-- What a matcher has of a MAC address. -/
structure MacMatch where
  mac47To16 : BitVec 32
  mac15To0 : BitVec 16
  deriving DecidableEq

/-- `set_src_mac` and `set_dst_mac`. -/
def setMac (mac : BitVec 64) : MacMatch where
  mac47To16 := (mac >>> 16).setWidth 32
  mac15To0 := (mac % (1 <<< 16)).setWidth 16

/-- An address as a number, its first byte most significant. -/
def macNumber (address : List (BitVec 8)) : Nat :=
  address.foldl (fun number byte => number * 256 + byte.toNat) 0

/-- The NIC compares both fields in full, since their masks are all ones. -/
def MacMatch.Selects (rule : MacMatch) (address : List (BitVec 8)) : Prop :=
  address.length = 6 ∧ macNumber address / 2 ^ 16 = rule.mac47To16.toNat ∧
    macNumber address % 2 ^ 16 = rule.mac15To0.toNat

/-- Addresses of the same number are the same. -/
theorem foldl_number_inj {address other : List (BitVec 8)} {number number' : Nat}
    (hlength : address.length = other.length)
    (heq : address.foldl (fun number byte => number * 256 + byte.toNat) number =
      other.foldl (fun number byte => number * 256 + byte.toNat) number') :
    number = number' ∧ address = other := by
  induction address generalizing other number number' with
  | nil =>
      obtain rfl := List.length_eq_zero_iff.mp hlength.symm
      exact ⟨heq, rfl⟩
  | cons byte rest ih =>
      cases other with
      | nil => cases hlength
      | cons byte' rest' =>
          obtain ⟨hfirst, rfl⟩ := ih (Nat.succ.inj hlength) heq
          dsimp only at hfirst
          have hbyte := byte.isLt
          have hbyte' := byte'.isLt
          have hsame : byte.toNat = byte'.toNat := by omega
          obtain rfl := BitVec.eq_of_toNat_eq hsame
          exact ⟨by omega, rfl⟩

theorem macNumber_inj {address other : List (BitVec 8)} (hlength : address.length = other.length)
    (hnumber : macNumber address = macNumber other) : address = other :=
  (foldl_number_inj hlength hnumber).2

/-- A rule made of a number selects the addresses of that number. -/
theorem selects_setMac_iff {mac : BitVec 64} (hmac : mac.toNat < 2 ^ 48)
    {address : List (BitVec 8)} :
    (setMac mac).Selects address ↔ address.length = 6 ∧ macNumber address = mac.toNat := by
  have hhigh : (setMac mac).mac47To16.toNat = mac.toNat / 2 ^ 16 := by
    simp only [setMac, BitVec.toNat_setWidth, BitVec.toNat_ushiftRight, Nat.shiftRight_eq_div_pow]
    omega
  have hlow : (setMac mac).mac15To0.toNat = mac.toNat % 2 ^ 16 := by
    simp only [setMac, BitVec.toNat_setWidth, BitVec.toNat_umod]
    exact Nat.mod_mod _ _
  rw [MacMatch.Selects, hhigh, hlow]
  constructor
  · rintro ⟨hlength, hfields⟩
    exact ⟨hlength, by omega⟩
  · rintro ⟨hlength, hnumber⟩
    rw [hnumber]
    exact ⟨hlength, rfl, rfl⟩

theorem macNumber_threadAddr (threadIndex : BitVec 8) :
    macNumber (threadAddr threadIndex) = 0x020101010100 + (1 + threadIndex.toNat) % 256 := by
  change 0x0201010101 * 256 + (1 + threadIndex).toNat = _
  rw [BitVec.toNat_add]
  rfl

theorem toNat_targetMac_add {index : Nat} (hindex : index < 2 ^ 32) :
    (targetMac + BitVec.ofNat 64 index).toNat = 0x020101010101 + index := by
  rw [BitVec.toNat_add, BitVec.toNat_ofNat, targetMac]
  change (0x020101010101 + index % 2 ^ 64) % 2 ^ 64 = _
  omega

/-- The rule that the host makes for a thread selects the address that the thread
takes exactly when the last byte of the address does not overflow. -/
theorem rule_selects_threadAddr_iff (index : Nat) (hindex : index < 2 ^ 32) :
    (setMac (targetMac + BitVec.ofNat 64 index)).Selects (threadAddr (BitVec.ofNat 8 index)) ↔
      index < 255 := by
  have hmac := toNat_targetMac_add hindex
  rw [selects_setMac_iff (by omega), hmac, macNumber_threadAddr, BitVec.toNat_ofNat]
  constructor
  · rintro ⟨-, hnumber⟩
    omega
  · intro hsmall
    exact ⟨rfl, by omega⟩

/-- The device admits 190 threads; the last one is still steered by its rule. -/
theorem rule_selects_threadAddr_last :
    189 < 2 ^ 32 ∧
      (setMac (targetMac + BitVec.ofNat 64 189)).Selects (threadAddr (BitVec.ofNat 8 189)) :=
  ⟨by decide, (rule_selects_threadAddr_iff 189 (by decide)).mpr (by decide)⟩

/-! ## The assignments to a buffer -/

def pktSize : Nat := hdrSize + 22

def threadCredits : BitVec 8 := 8

/-- The assignments to the addresses, in the order of the source. -/
def addressStores (threadIndex : BitVec 8) : List Store :=
  [.write 6 srcAddr, .add 11 threadIndex, .write 0 dstAddr]

/-- The assignments of `send_packet_dpa`; `send_packet_on_host` makes the same ones
through a window. -/
def sendPacket (threadIndex : BitVec 8) : List Store := addressStores threadIndex

/-- The fields that `prepare_packet` writes behind the addresses. -/
def headerFields (threadIndex : BitVec 64) : List (Nat × List (BitVec 8)) :=
  let number := cpuToBe16 (threadIndex.setWidth 16)
  [(12, cpuToBe16 0x0800),
    (14, [0x45]),
    (15, [0]),
    (16, cpuToBe16 44),
    (18, number),
    (20, cpuToBe16 0),
    (22, [64]),
    (23, [17]),
    -- A 16-bit value in network order, assigned to a 32-bit address field.
    (26, number ++ [0, 0]),
    (30, number ++ [0, 0]),
    (38, cpuToBe16 24),
    (34, number),
    (36, number)]

def preparePacket (threadIndex : BitVec 64) : List Store :=
  addressStores (threadIndex.setWidth 8) ++
    (headerFields threadIndex).map fun field => .write field.1 field.2

/-- `prepare_packet_host` fills a record on its stack and copies it. -/
def preparePacketHost (stack : Buffer) (threadIndex : BitVec 64) : List Store :=
  [.write 0 (readBytes (applyStores (preparePacket threadIndex) stack) hdrSize)]

/-! ## The threads, the NIC and the network -/

/-- The flags of the host. Every thread has passed the assertion on its index. -/
structure MtConfig where
  threadNum : Nat
  beginThread : Nat
  sqOnHost : Bool
  txSharedRxBuffer : Bool
  initialized : beginThread + threadNum ≤ maxThreads

/-- Who writes to the send buffers: the handlers of the threads and the host's call. -/
inductive Writer
  | handler (round : Nat)
  | call
  deriving DecidableEq

/-- Where a writer is: between two buffers, between the load and the store of
`tx_buff_idx++`, or at a buffer with some assignments left. -/
inductive Progress
  | idle
  | loaded (txBuffIdx : BitVec 32)
  | writing (slot : Nat) (stores : List Store)

namespace MtConfig

variable (config : MtConfig)

/-- The index of the thread that is started in a round of the host's loop. -/
def threadIndex (round : Nat) : BitVec 32 := BitVec.ofNat 32 (round + config.beginThread)

def addr (round : Nat) : List (BitVec 8) := threadAddr ((config.threadIndex round).setWidth 8)

/-- The matcher for the received and for the sent packets of a thread. -/
def rule (round : Nat) : MacMatch :=
  setMac (targetMac + BitVec.ofNat 64 round + BitVec.ofNat 64 config.beginThread)

/-- The buffer of a receive WQE. -/
def rxSlot (received : Nat) : Nat :=
  if config.txSharedRxBuffer then received % 2 ^ logRingDepth
  else 2 ^ logRingDepth + received % 2 ^ logRingDepth

/-- What a writer does to a buffer of a thread. -/
def stores (round : Nat) (stack : Buffer) : Writer → List Store
  | .handler _ => sendPacket ((config.threadIndex round).setWidth 8)
  | .call =>
      let threadIndex := (config.threadIndex round).setWidth 64
      if config.sqOnHost then preparePacketHost stack threadIndex else preparePacket threadIndex

end MtConfig

/-- The context of a thread, its buffers and the entries the NIC has to send. -/
structure MtThread where
  credits : BitVec 8
  txBuffIdx : BitVec 32
  slots : Nat → Buffer
  posted : List Nat
  received : Nat

/-- The buffer that `get_next_send_buf` finds for a value of the counter. -/
def slotOf (txBuffIdx : BitVec 32) : Nat := (txBuffIdx &&& ringMask logRingDepth).toNat

namespace MtThread

def init (slots : Nat → Buffer) : MtThread where
  credits := threadCredits
  txBuffIdx := 0
  slots
  posted := []
  received := 0

def setTxBuffIdx (txBuffIdx : BitVec 32) (thread : MtThread) : MtThread :=
  { thread with txBuffIdx }

def write (slot : Nat) (stores : List Store) (thread : MtThread) : MtThread :=
  { thread with
    slots := Function.update thread.slots slot (applyStores stores (thread.slots slot)) }

/-- `prepare_send_packet`, `credits--` and `finish_send_packet`. -/
def post (slot : Nat) (thread : MtThread) : MtThread :=
  { thread with posted := thread.posted ++ [slot], credits := thread.credits - 1 }

/-- The NIC writes a frame to the buffer of the next receive WQE. -/
def receive (slot : Nat) (frame : Frame) (thread : MtThread) : MtThread :=
  { thread with
    slots := Function.update thread.slots slot (writeBytes (thread.slots slot) frame)
    received := thread.received + 1 }

end MtThread

/-- All threads and writers, how many entries `dpa_send_mt_deivce_first_packet` has
prepared, and the frames on the way, with the thread whose queue they left.
`delivered` pairs the thread that a received frame comes from with the queue it was
put in. -/
structure MtSender where
  thread : Nat → MtThread
  progress : Writer → Progress
  prepared : Nat
  outward : List (Nat × Frame)
  inward : List (Option Nat × Frame)
  delivered : List (Option Nat × Nat)

namespace MtSender

def init (slots : Nat → Nat → Buffer) : MtSender where
  thread round := .init (slots round)
  progress _ := .idle
  prepared := 0
  outward := []
  inward := []
  delivered := []

def setThread (state : MtSender) (round : Nat) (thread : MtThread) : MtSender :=
  { state with thread := Function.update state.thread round thread }

/-- The thread whose buffers a writer writes to. -/
def round (state : MtSender) : Writer → Nat
  | .handler round => round
  | .call => state.prepared / 2 ^ logRingDepth

/-- A writer changes something of its thread and goes on. -/
def advance (state : MtSender) (writer : Writer) (change : MtThread → MtThread)
    (progress : Progress) : MtSender :=
  { state.setThread (state.round writer) (change (state.thread (state.round writer))) with
    progress := Function.update state.progress writer progress }

/-- A handler runs for good; the call ends when all entries are prepared. -/
def Active (config : MtConfig) (state : MtSender) : Writer → Prop
  | .handler round => round < config.threadNum
  | .call => state.prepared < config.threadNum * 2 ^ logRingDepth

end MtSender

inductive MtAction
  | load (writer : Writer)
  | take (writer : Writer)
  | store (writer : Writer)
  | post (round : Nat)
  | next
  | transmit (round : Nat)
  | reflect
  | arrive (frame : Frame)
  | receive (queue : Nat)
  | lose

/-- The handlers send while the host's call prepares the packets. The NIC sends what a
buffer holds when it gets to it, if some rule lets it out, and puts a frame in a queue
whose rule selects it. The peer at `DST_ADDR` reflects what is sent to it, in any order;
since nothing is received on the device, no receive WQE is posted again. -/
inductive MtStep (config : MtConfig) : MtSender → MtAction → MtSender → Prop
  | load {state : MtSender} {writer : Writer} (hactive : state.Active config writer)
      (hidle : state.progress writer = .idle) :
      MtStep config state (.load writer)
        (state.advance writer id (.loaded (state.thread (state.round writer)).txBuffIdx))
  | take {state : MtSender} {writer : Writer} {txBuffIdx : BitVec 32} (stack : Buffer)
      (hactive : state.Active config writer)
      (hloaded : state.progress writer = .loaded txBuffIdx) :
      MtStep config state (.take writer)
        (state.advance writer (·.setTxBuffIdx (txBuffIdx + 1))
          (.writing (slotOf txBuffIdx) (config.stores (state.round writer) stack writer)))
  | store {state : MtSender} {writer : Writer} {slot : Nat} {store : Store} {stores : List Store}
      (hactive : state.Active config writer)
      (hwriting : state.progress writer = .writing slot (store :: stores)) :
      MtStep config state (.store writer)
        (state.advance writer (·.write slot [store]) (.writing slot stores))
  | post {state : MtSender} {round slot : Nat} (hround : round < config.threadNum)
      (hwritten : state.progress (.handler round) = .writing slot []) :
      MtStep config state (.post round) (state.advance (.handler round) (·.post slot) .idle)
  | next {state : MtSender} {slot : Nat}
      (hprepared : state.prepared < config.threadNum * 2 ^ logRingDepth)
      (hwritten : state.progress .call = .writing slot []) :
      MtStep config state .next
        { state.advance .call id .idle with prepared := state.prepared + 1 }
  | transmit {state : MtSender} {round slot sender : Nat} {rest : List Nat}
      (hround : round < config.threadNum)
      (hposted : (state.thread round).posted = slot :: rest)
      (hsender : sender < config.threadNum)
      (hrule : (config.rule sender).Selects
        (Frame.src (readBytes ((state.thread round).slots slot) pktSize))) :
      MtStep config state (.transmit round)
        { state.setThread round { state.thread round with posted := rest } with
          outward := state.outward ++
            [(round, readBytes ((state.thread round).slots slot) pktSize)] }
  | block {state : MtSender} {round slot : Nat} {rest : List Nat}
      (hround : round < config.threadNum)
      (hposted : (state.thread round).posted = slot :: rest)
      (hrule : ∀ sender < config.threadNum, ¬(config.rule sender).Selects
        (Frame.src (readBytes ((state.thread round).slots slot) pktSize))) :
      MtStep config state (.transmit round)
        (state.setThread round { state.thread round with posted := rest })
  | reflect {state : MtSender} {origin : Nat} {frame : Frame}
      (houtward : (origin, frame) ∈ state.outward) (hdst : frame.dst = dstAddr) :
      MtStep config state .reflect
        { state with
          outward := state.outward.erase (origin, frame)
          inward := state.inward ++ [(some origin, frame.swapMacs)] }
  | arrive {state : MtSender} (frame : Frame) :
      MtStep config state (.arrive frame) { state with inward := state.inward ++ [(none, frame)] }
  | receive {state : MtSender} {origin : Option Nat} {frame : Frame} {queue : Nat}
      (hinward : (origin, frame) ∈ state.inward) (hqueue : queue < config.threadNum)
      (hrule : (config.rule queue).Selects frame.dst)
      (hroom : (state.thread queue).received < 2 ^ logRingDepth) :
      MtStep config state (.receive queue)
        { state.setThread queue ((state.thread queue).receive
            (config.rxSlot (state.thread queue).received) frame) with
          inward := state.inward.erase (origin, frame)
          delivered := state.delivered ++ [(origin, queue)] }
  | loseOutward {state : MtSender} {item : Nat × Frame} (houtward : item ∈ state.outward) :
      MtStep config state .lose { state with outward := state.outward.erase item }
  | loseInward {state : MtSender} {item : Option Nat × Frame} (hinward : item ∈ state.inward) :
      MtStep config state .lose { state with inward := state.inward.erase item }

def mtSystem (config : MtConfig) : System MtSender MtAction where
  start state := ∃ slots, state = MtSender.init slots
  step := MtStep config

/-! ## What the source leaves to luck -/

/-- Nobody else sends to the threads if a received frame can get into a send buffer. -/
def Undisturbed (config : MtConfig) (_ : MtSender) : MtAction → Prop
  | .arrive frame => config.txSharedRxBuffer = true →
      ∀ queue < config.threadNum, ¬(config.rule queue).Selects frame.dst
  | _ => True

/-- No buffer is taken that the NIC still has to send or that another writer is at. -/
def Exclusive (state : MtSender) : MtAction → Prop
  | .take writer => ∀ txBuffIdx, state.progress writer = .loaded txBuffIdx →
      slotOf txBuffIdx ∉ (state.thread (state.round writer)).posted ∧
        ∀ other stores, state.round other = state.round writer →
          state.progress other ≠ .writing (slotOf txBuffIdx) stores
  | _ => True

/-- The handlers send only after the call has prepared all packets. -/
def Waits (config : MtConfig) (state : MtSender) : MtAction → Prop
  | .load (.handler _) => state.prepared = config.threadNum * 2 ^ logRingDepth
  | _ => True

/-! ## The rules tell the threads apart -/

namespace MtConfig

variable {config : MtConfig} {round queue : Nat}

theorem toNat_threadIndex (hround : round < config.threadNum) :
    ((config.threadIndex round).setWidth 8).toNat = round + config.beginThread := by
  have hlimit := config.initialized
  unfold maxThreads at hlimit
  rw [threadIndex, BitVec.toNat_setWidth, BitVec.toNat_ofNat]
  omega

theorem macNumber_addr (hround : round < config.threadNum) :
    macNumber (config.addr round) = 0x020101010101 + (round + config.beginThread) := by
  have hlimit := config.initialized
  rw [addr, macNumber_threadAddr, toNat_threadIndex hround]
  unfold maxThreads at hlimit
  omega

theorem rule_selects_iff (hround : round < config.threadNum) {address : List (BitVec 8)} :
    (config.rule round).Selects address ↔ address = config.addr round := by
  have hlimit := config.initialized
  unfold maxThreads at hlimit
  have hmac : (targetMac + BitVec.ofNat 64 round + BitVec.ofNat 64 config.beginThread).toNat =
      0x020101010101 + (round + config.beginThread) := by
    rw [add_assoc, ← BitVec.ofNat_add, toNat_targetMac_add (by omega)]
  rw [rule, selects_setMac_iff (by omega), hmac]
  constructor
  · rintro ⟨hlength, hnumber⟩
    exact macNumber_inj hlength (hnumber.trans (macNumber_addr hround).symm)
  · rintro rfl
    exact ⟨rfl, macNumber_addr hround⟩

theorem addr_inj (hround : round < config.threadNum) (hqueue : queue < config.threadNum)
    (heq : config.addr round = config.addr queue) : round = queue := by
  have hnumber := congrArg macNumber heq
  rw [macNumber_addr hround, macNumber_addr hqueue] at hnumber
  omega

/-- Only shared buffers are both received into and sent from. -/
theorem shared_of_rxSlot_lt {received : Nat}
    (hslot : config.rxSlot received < 2 ^ logRingDepth) : config.txSharedRxBuffer = true := by
  by_contra hshared
  rw [rxSlot, if_neg hshared] at hslot
  omega

end MtConfig

/-- What is on the way after one more frame. -/
theorem mem_concat {α β : Type*} {items : List (α × β)} {origin origin' : α} {frame frame' : β} :
    (origin, frame) ∈ items ++ [(origin', frame')] ↔
      (origin, frame) ∈ items ∨ origin = origin' ∧ frame = frame' := by
  rw [List.mem_append, List.mem_singleton, Prod.mk.injEq]

/-! ## A function that nobody interrupts -/

theorem slotOf_ofNat (count : Nat) : slotOf (BitVec.ofNat 32 count) = count % 2 ^ logRingDepth := by
  rw [slotOf, ringMask, toNat_and_mask (by decide)]

theorem slotOf_lt (txBuffIdx : BitVec 32) : slotOf txBuffIdx < 2 ^ logRingDepth := by
  rw [slotOf, BitVec.toNat_and]
  exact Nat.lt_of_le_of_lt Nat.and_le_right (by decide)

namespace MtThread

theorem slots_write (thread : MtThread) (slot : Nat) (stores : List Store) (other : Nat) :
    (thread.write slot stores).slots other =
      if other = slot then applyStores stores (thread.slots slot) else thread.slots other :=
  Function.update_apply ..

theorem receive_slots_self (thread : MtThread) (slot : Nat) (frame : Frame) :
    (thread.receive slot frame).slots slot = writeBytes (thread.slots slot) frame :=
  Function.update_self ..

theorem receive_slots_of_ne {thread : MtThread} {slot other : Nat} {frame : Frame}
    (hne : other ≠ slot) : (thread.receive slot frame).slots other = thread.slots other :=
  Function.update_of_ne hne _ _

theorem write_nil (slot : Nat) : write slot [] = id := by
  funext thread
  exact congrArg (fun slots => { thread with slots }) (Function.update_eq_self slot thread.slots)

theorem write_comp_write (slot : Nat) (first rest : List Store) :
    write slot rest ∘ write slot first = write slot (first ++ rest) := by
  funext thread
  simp only [Function.comp, write, Function.update_idem, Function.update_self, applyStores_append]

/-- `get_next_send_buf`, and then some assignments to the buffer. -/
def writeNext (stores : List Store) (thread : MtThread) : MtThread :=
  (thread.setTxBuffIdx (thread.txBuffIdx + 1)).write (slotOf thread.txBuffIdx) stores

/-- All of `send_packet_dpa`. -/
def sendNext (threadIndex : BitVec 8) (thread : MtThread) : MtThread :=
  (thread.writeNext (sendPacket threadIndex)).post (slotOf thread.txBuffIdx)

end MtThread

namespace MtSender

variable {state : MtSender} {writer other : Writer} {progress : Progress} {round queue : Nat}
  {thread : MtThread} {change : MtThread → MtThread}

theorem setThread_self : (state.setThread round thread).thread round = thread :=
  Function.update_self ..

theorem setThread_of_ne (hne : queue ≠ round) :
    (state.setThread round thread).thread queue = state.thread queue :=
  Function.update_of_ne hne _ _

theorem advance_progress_self : (state.advance writer change progress).progress writer = progress :=
  Function.update_self ..

theorem advance_progress_of_ne (hne : other ≠ writer) :
    (state.advance writer change progress).progress other = state.progress other :=
  Function.update_of_ne hne _ _

theorem advance_idle (hidle : ∀ writer, state.progress writer = .idle) (other : Writer) :
    (state.advance writer change .idle).progress other = .idle := by
  by_cases heq : other = writer
  · rw [heq, advance_progress_self]
  · rw [advance_progress_of_ne heq]
    exact hidle other

theorem advance_round : (state.advance writer change progress).round other = state.round other := by
  cases other <;> rfl

theorem advance_active {config : MtConfig} :
    (state.advance writer change progress).Active config other ↔ state.Active config other := by
  cases other <;> rfl

theorem advance_thread_self (hround : state.round writer = round) :
    (state.advance writer change progress).thread round = change (state.thread round) := by
  subst hround
  exact setThread_self

theorem advance_handler_thread :
    (state.advance (.handler round) change progress).thread round = change (state.thread round) :=
  setThread_self

theorem advance_thread_of_ne (hne : queue ≠ state.round writer) :
    (state.advance writer change progress).thread queue = state.thread queue :=
  setThread_of_ne hne

theorem advance_id_thread : (state.advance writer id progress).thread = state.thread :=
  Function.update_eq_self _ _

/-- Two changes in a row are one. -/
theorem advance_advance (change' : MtThread → MtThread) (progress' : Progress) :
    (state.advance writer change progress).advance writer change' progress' =
      state.advance writer (change' ∘ change) progress' := by
  rw [advance, advance_round, advance_thread_self rfl]
  simp only [advance, setThread, Function.update_idem, Function.comp]

theorem advance_id (hsame : state.progress writer = progress) :
    state.advance writer id progress = state := by
  subst hsame
  simp only [advance, setThread, id, Function.update_eq_self]

end MtSender

section Paths

variable {config : MtConfig} {allowed : MtSender → MtAction → Prop} {state : MtSender}
  {writer : Writer}

/-- Assignments that a writer makes one after the other. -/
theorem stores_reachable (hreach : ((mtSystem config).restrict allowed).Reachable state)
    (hstore : ∀ state, allowed state (.store writer)) (hactive : state.Active config writer)
    {slot : Nat} {first rest : List Store}
    (hwriting : state.progress writer = .writing slot (first ++ rest)) :
    ((mtSystem config).restrict allowed).Reachable
      (state.advance writer (·.write slot first) (.writing slot rest)) := by
  induction first generalizing state with
  | nil =>
      rw [List.nil_append] at hwriting
      change System.Reachable _ (state.advance writer (MtThread.write slot []) _)
      rw [MtThread.write_nil, MtSender.advance_id hwriting]
      exact hreach
  | cons store first ih =>
      have hnext := hreach.step_restrict (MtStep.store hactive hwriting) (hstore state)
      have hrest := ih hnext (MtSender.advance_active.mpr hactive) MtSender.advance_progress_self
      rw [MtSender.advance_advance] at hrest
      exact (MtThread.write_comp_write slot [store] first) ▸ hrest

/-- A writer that is let through the whole of its work on a buffer, up to the last
assignment. -/
theorem written_reachable (hreach : ((mtSystem config).restrict allowed).Reachable state)
    (hload : allowed state (.load writer))
    (htake : allowed (state.advance writer id
      (.loaded (state.thread (state.round writer)).txBuffIdx)) (.take writer))
    (hstore : ∀ state, allowed state (.store writer)) (hactive : state.Active config writer)
    (hidle : state.progress writer = .idle) (stack : Buffer) {first rest : List Store}
    (hstores : config.stores (state.round writer) stack writer = first ++ rest) :
    ((mtSystem config).restrict allowed).Reachable
      (state.advance writer (·.writeNext first)
        (.writing (slotOf (state.thread (state.round writer)).txBuffIdx) rest)) := by
  have hloaded := hreach.step_restrict (MtStep.load hactive hidle) hload
  have htaken := hloaded.step_restrict (MtStep.take stack (MtSender.advance_active.mpr hactive)
    MtSender.advance_progress_self) htake
  rw [MtSender.advance_advance, MtSender.advance_round, hstores] at htaken
  have hwritten := stores_reachable htaken hstore (MtSender.advance_active.mpr hactive)
    MtSender.advance_progress_self
  rw [MtSender.advance_advance] at hwritten
  exact hwritten

/-- A handler makes the assignments that are left and posts the buffer. -/
theorem posted_reachable {round slot : Nat} {stores : List Store}
    (hreach : ((mtSystem config).restrict allowed).Reachable state)
    (hstore : ∀ state, allowed state (.store (.handler round)))
    (hpost : ∀ state, allowed state (.post round)) (hround : round < config.threadNum)
    (hwriting : state.progress (.handler round) = .writing slot stores) :
    ((mtSystem config).restrict allowed).Reachable
      (state.advance (.handler round) (fun thread => (thread.write slot stores).post slot)
        .idle) := by
  rw [← List.append_nil stores] at hwriting
  have hwritten := stores_reachable hreach hstore hround hwriting
  have hposted := hwritten.step_restrict (MtStep.post hround MtSender.advance_progress_self)
    (hpost _)
  rw [MtSender.advance_advance] at hposted
  exact hposted

theorem send_reachable {round : Nat}
    (hreach : ((mtSystem config).restrict allowed).Reachable state)
    (hload : allowed state (.load (.handler round)))
    (htake : allowed (state.advance (.handler round) id
      (.loaded (state.thread round).txBuffIdx)) (.take (.handler round)))
    (hstore : ∀ state, allowed state (.store (.handler round)))
    (hpost : ∀ state, allowed state (.post round)) (hround : round < config.threadNum)
    (hidle : state.progress (.handler round) = .idle) :
    ((mtSystem config).restrict allowed).Reachable (state.advance (.handler round)
      (·.sendNext ((config.threadIndex round).setWidth 8)) .idle) := by
  have hwritten := written_reachable hreach hload htake hstore hround hidle (fun _ => 0)
    (List.append_nil _).symm
  have hposted := hwritten.step_restrict (MtStep.post hround MtSender.advance_progress_self)
    (hpost _)
  rw [MtSender.advance_advance] at hposted
  exact hposted

/-- A round of the inner loop of `dpa_send_mt_deivce_first_packet`. -/
def MtSender.prepareNext (config : MtConfig) (stack : Buffer) (state : MtSender) : MtSender :=
  { state.advance .call (·.writeNext (config.stores (state.round .call) stack .call)) .idle with
    prepared := state.prepared + 1 }

theorem MtSender.prepareNext_idle (hidle : ∀ writer, state.progress writer = .idle)
    (stack : Buffer) (writer : Writer) :
    (state.prepareNext config stack).progress writer = .idle :=
  @MtSender.advance_idle state .call id hidle writer

theorem prepare_reachable (hreach : ((mtSystem config).restrict allowed).Reachable state)
    (hload : allowed state (.load .call))
    (htake : allowed (state.advance .call id
      (.loaded (state.thread (state.round .call)).txBuffIdx)) (.take .call))
    (hstore : ∀ state, allowed state (.store .call)) (hnext : ∀ state, allowed state .next)
    (hprepared : state.prepared < config.threadNum * 2 ^ logRingDepth)
    (hidle : state.progress .call = .idle) (stack : Buffer) :
    ((mtSystem config).restrict allowed).Reachable (state.prepareNext config stack) := by
  have hwritten := written_reachable hreach hload htake hstore hprepared hidle stack
    (List.append_nil _).symm
  have hprepared := hwritten.step_restrict
    (MtStep.next hprepared MtSender.advance_progress_self) (hnext _)
  rw [MtSender.advance_advance] at hprepared
  exact hprepared

end Paths

end BenchBF3.Dpa.SendMt
