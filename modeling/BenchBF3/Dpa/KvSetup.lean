import Mathlib.Data.BitVec
import Mathlib.Data.List.Range
import BenchBF3.Foundation.System

/-! # Setting up the aggregation threads

The host program allocates one table of counters and starts the threads one
after another: the init RPC of a thread comes before its event handler is run.
The address of the table reaches the handlers through a global variable of the
device, which is set in the init RPC of thread 0 and of no other. Handlers run
as soon as they are started, beside the host's loop.
-/

namespace BenchBF3.Dpa

open Foundation

def maxThreads : Nat := 190

/-- What this program uses of `app_transfer_wq`. -/
structure TransferWq where
  wqdMkeyId : BitVec 32
  wqdDaddr : BitVec 64
  daddrOnHost : Bool

structure QueueConfigData where
  rqData : TransferWq
  sqData : TransferWq
  threadIndex : BitVec 32
  newBufferAddr : BitVec 64
  newBufferMkeyId : BitVec 32

/-- A thread's entry of `dev_ctxs`, without its queues, with the memory key that
its window has. -/
structure DeviceContext where
  kvElementsMkey : BitVec 32 := 0
  isInitialized : Bool := false
  rkey : BitVec 32 := 0
  rqWindowId : BitVec 32 := 0
  hostRxBuff : BitVec 64 := 0
  dpaRxBuff : BitVec 64 := 0
  rqOnHost : Bool := false
  sqOnHost : Bool := false
  threadId : BitVec 64 := 0
  kvElements : BitVec 64 := 0
  window : BitVec 32 := 0

structure KvDevice where
  globalEntryPtr : BitVec 64
  devCtxs : Nat → DeviceContext

/-- The globals when the device program is loaded. -/
def KvDevice.loaded : KvDevice := ⟨0, fun _ => {}⟩

def DeviceContext.configure (data : QueueConfigData) (ctx : DeviceContext) : DeviceContext :=
  { ctx with
    kvElementsMkey := data.sqData.wqdMkeyId
    rkey := data.rqData.wqdMkeyId
    rqWindowId := data.newBufferMkeyId
    hostRxBuff := data.rqData.wqdDaddr
    rqOnHost := data.rqData.daddrOnHost
    sqOnHost := data.sqData.daddrOnHost
    threadId := data.threadIndex.setWidth 64
    isInitialized := true }

/-- `dpa_kv_aggregation_device_init`; a failed assertion returns -1. -/
def deviceInit (data : QueueConfigData) (device : KvDevice) : BitVec 64 × KvDevice :=
  if data.threadIndex.toNat < maxThreads then
    let globalEntryPtr :=
      if data.threadIndex = 0 then data.newBufferAddr else device.globalEntryPtr
    let index := data.threadIndex.toNat
    (0, ⟨globalEntryPtr,
      Function.update device.devCtxs index ((device.devCtxs index).configure data)⟩)
  else (-1, device)

/-- What the device library answers: the address under which a window with this
identifier and memory key shows a host address. -/
abbrev WindowPtr := BitVec 16 → BitVec 32 → BitVec 64 → BitVec 64

def DeviceContext.getHostBuffer (windowPtr : WindowPtr) (ctx : DeviceContext) (mkey : BitVec 32)
    (haddr : BitVec 64) : BitVec 64 × DeviceContext :=
  (windowPtr (ctx.rqWindowId.setWidth 16) mkey haddr, { ctx with window := mkey })

/-- Where the event handler finds the receive buffers. -/
def DeviceContext.setRxBuff (windowPtr : WindowPtr) (ctx : DeviceContext) : DeviceContext :=
  if ctx.rqOnHost then
    let outcome := ctx.getHostBuffer windowPtr ctx.rkey ctx.hostRxBuff
    { outcome.2 with dpaRxBuff := outcome.1 }
  else { ctx with dpaRxBuff := ctx.hostRxBuff }

/-- Where the event handler finds the table. -/
def DeviceContext.setKvElements (windowPtr : WindowPtr) (globalEntryPtr : BitVec 64)
    (ctx : DeviceContext) : DeviceContext :=
  if ctx.sqOnHost then
    let outcome := ctx.getHostBuffer windowPtr ctx.kvElementsMkey globalEntryPtr
    { outcome.2 with kvElements := outcome.1 }
  else { ctx with kvElements := globalEntryPtr }

/-- The event handler up to its loop; a thread that is not initialised is
rescheduled. -/
def DeviceContext.eventHandlerBegin (windowPtr : WindowPtr) (globalEntryPtr : BitVec 64)
    (ctx : DeviceContext) : Option DeviceContext :=
  if ctx.isInitialized then
    some ((ctx.setRxBuff windowPtr).setKvElements windowPtr globalEntryPtr)
  else none

/-! ## The host's loop -/

/-- The flags of the host program and what its allocations returned. -/
structure KvMain where
  beginThread : Nat
  threadNum : Nat
  rqBufferOnHost : Bool
  kvOnHost : Bool
  globalAddress : BitVec 64
  globalAddressMkey : BitVec 32
  windowId : BitVec 32
  rqTransf : Nat → TransferWq
  sqTransf : Nat → TransferWq

/-- The flag of the send queue is borrowed for the table. -/
def KvMain.devData (main : KvMain) (i : Nat) : QueueConfigData where
  rqData := { main.rqTransf i with daddrOnHost := main.rqBufferOnHost }
  sqData := { main.sqTransf i with
    wqdMkeyId := main.globalAddressMkey
    daddrOnHost := main.kvOnHost }
  threadIndex := BitVec.ofNat 32 (i + main.beginThread)
  newBufferAddr := main.globalAddress
  newBufferMkeyId := main.windowId

/-- Where the host is in its loop: before the init RPC of a round, or before it
runs that round's event handler. -/
inductive KvHost
  | init (i : Nat)
  | run (i : Nat)

/-- The device and the host, the handlers that the host has run, and those that
have come to their loop. -/
structure KvSetup where
  device : KvDevice
  host : KvHost
  started : List Nat
  begun : List Nat

inductive KvSetupAction
  | init
  | run
  | handler (index : Nat)

inductive KvSetupStep (windowPtr : WindowPtr) (main : KvMain) :
    KvSetup → KvSetupAction → KvSetup → Prop
  | init {state : KvSetup} {i : Nat} (hhost : state.host = .init i) (hi : i < main.threadNum) :
      KvSetupStep windowPtr main state .init
        { state with device := (deviceInit (main.devData i) state.device).2, host := .run i }
  | run {state : KvSetup} {i : Nat} (hhost : state.host = .run i) :
      KvSetupStep windowPtr main state .run
        { state with host := .init (i + 1), started := state.started ++ [i + main.beginThread] }
  | handler {state : KvSetup} {index : Nat} {ctx : DeviceContext} (hstarted : index ∈ state.started)
      (hbegin : (state.device.devCtxs index).eventHandlerBegin windowPtr
        state.device.globalEntryPtr = some ctx) :
      KvSetupStep windowPtr main state (.handler index)
        { state with
          device := { state.device with
            devCtxs := Function.update state.device.devCtxs index ctx }
          begun := index :: state.begun }

/-- Runs of the host's loop and of the handlers that it has started. -/
def kvSetupSystem (windowPtr : WindowPtr) (main : KvMain) : System KvSetup KvSetupAction where
  start state := state = ⟨.loaded, .init 0, [], []⟩
  step := KvSetupStep windowPtr main

/-! ## What the handlers get -/

namespace KvMain

/-- Where a handler sees an address: through its window if the table is on the host. -/
def view (windowPtr : WindowPtr) (main : KvMain) (address : BitVec 64) : BitVec 64 :=
  if main.kvOnHost then windowPtr (main.windowId.setWidth 16) main.globalAddressMkey address
  else address

/-- The global variable once the first thread is initialised. -/
def entryPtr (main : KvMain) : BitVec 64 :=
  if main.beginThread = 0 then main.globalAddress else 0

end KvMain

/-- The number of init RPCs so far. -/
def KvHost.initialized : KvHost → Nat
  | init i => i
  | run i => i + 1

def KvHost.started : KvHost → Nat
  | init i => i
  | run i => i

/-- The fields that the init RPC sets and the handler reads. -/
structure DeviceContext.Configured (main : KvMain) (ctx : DeviceContext) : Prop where
  isInitialized : ctx.isInitialized = true
  sqOnHost : ctx.sqOnHost = main.kvOnHost
  rqOnHost : ctx.rqOnHost = main.rqBufferOnHost
  kvElementsMkey : ctx.kvElementsMkey = main.globalAddressMkey
  rqWindowId : ctx.rqWindowId = main.windowId

/-- What holds while the host sets up: the threads initialised so far are those
from the first one on, and every handler that has begun got its table from the
global variable. -/
structure KvSetup.Ok (windowPtr : WindowPtr) (main : KvMain) (state : KvSetup) : Prop where
  initialized_le : state.host.initialized ≤ main.threadNum
  global : state.device.globalEntryPtr =
    if state.host.initialized = 0 then 0 else main.entryPtr
  configured : ∀ i < state.host.initialized,
    (state.device.devCtxs (i + main.beginThread)).Configured main
  started : ∀ index, index ∈ state.started ↔
    ∃ i < state.host.started, index = i + main.beginThread
  begun : ∀ index ∈ state.begun, index ∈ state.started ∧
    (state.device.devCtxs index).kvElements = main.view windowPtr main.entryPtr

section Steps

variable {windowPtr : WindowPtr} {main : KvMain}

theorem DeviceContext.configure_configured (i : Nat) (ctx : DeviceContext) :
    (ctx.configure (main.devData i)).Configured main :=
  ⟨rfl, rfl, rfl, rfl, rfl⟩

theorem DeviceContext.Configured.setRxBuff (windowPtr : WindowPtr) {ctx : DeviceContext}
    (hctx : ctx.Configured main) :
    (ctx.setRxBuff windowPtr).Configured main := by
  unfold DeviceContext.setRxBuff
  split <;> exact { hctx with }

theorem DeviceContext.Configured.setKvElements (windowPtr : WindowPtr) {ctx : DeviceContext}
    (hctx : ctx.Configured main) (globalEntryPtr : BitVec 64) :
    (ctx.setKvElements windowPtr globalEntryPtr).Configured main ∧
      (ctx.setKvElements windowPtr globalEntryPtr).kvElements =
        main.view windowPtr globalEntryPtr := by
  unfold DeviceContext.setKvElements KvMain.view
  rw [← hctx.sqOnHost]
  split
  next =>
    refine ⟨{ hctx with }, ?_⟩
    simp only [getHostBuffer, hctx.rqWindowId, hctx.kvElementsMkey]
  next => exact ⟨{ hctx with }, rfl⟩

/-- The thread index of a round is in range and is not cut off. -/
theorem KvMain.threadIndex_toNat (hle : main.beginThread + main.threadNum ≤ maxThreads) {i : Nat}
    (hi : i < main.threadNum) :
    (main.devData i).threadIndex.toNat = i + main.beginThread ∧
      i + main.beginThread < maxThreads := by
  have hlt : i + main.beginThread < maxThreads := by omega
  refine ⟨?_, hlt⟩
  change (BitVec.ofNat 32 (i + main.beginThread)).toNat = _
  rw [BitVec.toNat_ofNat]
  exact Nat.mod_eq_of_lt (hlt.trans (by decide))

/-- The init RPC of a round configures its own thread; the global variable is
set in thread 0. -/
theorem KvMain.deviceInit_devData (hle : main.beginThread + main.threadNum ≤ maxThreads) {i : Nat}
    (hi : i < main.threadNum) (device : KvDevice) :
    (deviceInit (main.devData i) device).2 =
      ⟨if i + main.beginThread = 0 then main.globalAddress else device.globalEntryPtr,
        Function.update device.devCtxs (i + main.beginThread)
          ((device.devCtxs (i + main.beginThread)).configure (main.devData i))⟩ := by
  obtain ⟨hindex, hlt⟩ := main.threadIndex_toNat hle hi
  have hzero : (main.devData i).threadIndex = 0 ↔ i + main.beginThread = 0 := by
    rw [← hindex, ← BitVec.toNat_inj]
    rfl
  unfold deviceInit
  simp only [hindex, hlt, if_true, hzero]
  rfl

theorem KvSetup.init_ok : KvSetup.Ok windowPtr main ⟨.loaded, .init 0, [], []⟩ where
  initialized_le := Nat.zero_le _
  global := rfl
  configured := by simp [KvHost.initialized]
  started := by simp [KvHost.started]
  begun := by simp

theorem KvHost.started_le_initialized (host : KvHost) : host.started ≤ host.initialized := by
  cases host with
  | init i => exact le_rfl
  | run i => exact Nat.le_succ i

/-- A started thread is configured, and the global variable is set as it will be. -/
theorem KvSetup.Ok.of_started {state : KvSetup} (hok : state.Ok windowPtr main) {index : Nat}
    (hstarted : index ∈ state.started) :
    (state.device.devCtxs index).Configured main ∧
      state.device.globalEntryPtr = main.entryPtr := by
  obtain ⟨i, hi, rfl⟩ := (hok.started index).mp hstarted
  have hinit := hi.trans_le state.host.started_le_initialized
  refine ⟨hok.configured i hinit, ?_⟩
  rw [hok.global, if_neg (by omega)]

theorem DeviceContext.Configured.begin {ctx : DeviceContext} (hctx : ctx.Configured main)
    (globalEntryPtr : BitVec 64) :
    ctx.eventHandlerBegin windowPtr globalEntryPtr =
      some ((ctx.setRxBuff windowPtr).setKvElements windowPtr globalEntryPtr) :=
  if_pos hctx.isInitialized

/-- A round initialises the context of its thread. -/
theorem KvSetup.Ok.init {state : KvSetup} {i : Nat} (hok : state.Ok windowPtr main)
    (hle : main.beginThread + main.threadNum ≤ maxThreads) (hhost : state.host = .init i)
    (hi : i < main.threadNum) :
    KvSetup.Ok windowPtr main
      { state with device := (deviceInit (main.devData i) state.device).2, host := .run i } := by
  have hglobal := hok.global
  have hconfigured := hok.configured
  have hstarted := hok.started
  rw [hhost] at hglobal hconfigured hstarted
  rw [main.deviceInit_devData hle hi]
  refine ⟨hi, ?_, ?_, hstarted, ?_⟩
  · change (if i + main.beginThread = 0 then main.globalAddress
      else state.device.globalEntryPtr) = if i + 1 = 0 then 0 else main.entryPtr
    change state.device.globalEntryPtr = if i = 0 then 0 else main.entryPtr at hglobal
    rw [hglobal, if_neg (Nat.add_one_ne_zero i)]
    -- Only the first round can be the one of thread 0.
    by_cases hfirst : i = 0
    · simp [hfirst, KvMain.entryPtr]
    · rw [if_neg (show i + main.beginThread ≠ 0 by omega), if_neg hfirst]
  · intro j hj
    by_cases heq : j = i
    · subst j
      simpa using DeviceContext.configure_configured i _
    · dsimp only
      rw [Function.update_of_ne (by omega)]
      exact hconfigured j (by simp only [KvHost.initialized] at hj ⊢; omega)
  · -- Threads that have begun come before the one of this round.
    intro index hbegun
    obtain ⟨hindex, htable⟩ := hok.begun index hbegun
    obtain ⟨j, hj, rfl⟩ := (hstarted index).mp hindex
    refine ⟨hindex, ?_⟩
    dsimp only
    rw [Function.update_of_ne (by simp only [KvHost.started] at hj; omega)]
    exact htable

/-- A round starts the handler of its thread. -/
theorem KvSetup.Ok.run {state : KvSetup} {i : Nat} (hok : state.Ok windowPtr main)
    (hhost : state.host = .run i) :
    KvSetup.Ok windowPtr main
      { state with host := .init (i + 1), started := state.started ++ [i + main.beginThread] } := by
  have hinitialized := hok.initialized_le
  have hglobal := hok.global
  have hconfigured := hok.configured
  have hstarted := hok.started
  rw [hhost] at hinitialized hglobal hconfigured hstarted
  refine ⟨hinitialized, hglobal, hconfigured, ?_, ?_⟩
  · intro index
    rw [List.mem_append, hstarted, List.mem_singleton]
    constructor
    · rintro (⟨j, hj, rfl⟩ | rfl)
      · exact ⟨j, Nat.lt_succ_of_lt hj, rfl⟩
      · exact ⟨i, Nat.lt_succ_self i, rfl⟩
    · rintro ⟨j, hj, rfl⟩
      rcases Nat.lt_succ_iff_lt_or_eq.mp hj with hlt | rfl
      · exact .inl ⟨j, hlt, rfl⟩
      · exact .inr rfl
  · intro index hbegun
    obtain ⟨hindex, htable⟩ := hok.begun index hbegun
    exact ⟨List.mem_append_left _ hindex, htable⟩

/-- A handler that begins sets up its own context only. -/
theorem KvSetup.Ok.handler {state : KvSetup} {index : Nat} {ctx : DeviceContext}
    (hok : state.Ok windowPtr main) (hstarted : index ∈ state.started)
    (hbegin : (state.device.devCtxs index).eventHandlerBegin windowPtr
      state.device.globalEntryPtr = some ctx) :
    KvSetup.Ok windowPtr main
      { state with
        device := { state.device with
          devCtxs := Function.update state.device.devCtxs index ctx }
        begun := index :: state.begun } := by
  obtain ⟨hctx, hglobal⟩ := hok.of_started hstarted
  rw [hctx.begin, hglobal] at hbegin
  obtain ⟨hnext, htable⟩ := (hctx.setRxBuff windowPtr).setKvElements windowPtr main.entryPtr
  rw [Option.some.inj hbegin] at hnext htable
  refine ⟨hok.initialized_le, hok.global, ?_, hok.started, ?_⟩
  · intro j hj
    dsimp only
    rw [Function.update_apply]
    split
    next => exact hnext
    next => exact hok.configured j hj
  · intro other hother
    dsimp only
    rw [Function.update_apply]
    split
    next heq =>
      subst other
      exact ⟨hstarted, htable⟩
    next hne =>
      rcases List.mem_cons.mp hother with heq | hbefore
      · exact (hne heq).elim
      · exact hok.begun other hbefore

theorem KvSetupStep.ok {state next : KvSetup} {action : KvSetupAction}
    (hle : main.beginThread + main.threadNum ≤ maxThreads)
    (hstep : KvSetupStep windowPtr main state action next) (hok : state.Ok windowPtr main) :
    next.Ok windowPtr main := by
  cases hstep with
  | init hhost hi => exact hok.init hle hhost hi
  | run hhost => exact hok.run hhost
  | handler hstarted hbegin => exact hok.handler hstarted hbegin

theorem kvSetupSystem_ok (hle : main.beginThread + main.threadNum ≤ maxThreads) {state : KvSetup}
    (hreach : (kvSetupSystem windowPtr main).Reachable state) : state.Ok windowPtr main := by
  apply hreach.invariant
  · rintro _ rfl
    exact KvSetup.init_ok
  · intro state action next _ hok hstep
    exact KvSetupStep.ok hle hstep hok

/-! ## The setup comes to its end -/

/-- The host goes on to the end of its loop. -/
theorem exists_path_started (hle : main.beginThread + main.threadNum ≤ maxThreads)
    {state : KvSetup} (hreach : (kvSetupSystem windowPtr main).Reachable state) :
    ∃ last, (kvSetupSystem windowPtr main).Path state last ∧
      last.host = .init main.threadNum := by
  have hbound := (kvSetupSystem_ok hle hreach).initialized_le
  -- Both steps of a round bring the host nearer to the end.
  induction hleft : 2 * main.threadNum - (state.host.initialized + state.host.started)
      using Nat.strong_induction_on generalizing state with
  | _ left ih =>
      cases hhost : state.host with
      | init i =>
          rw [hhost] at hbound hleft
          dsimp only [KvHost.initialized, KvHost.started] at hbound hleft
          by_cases hi : i < main.threadNum
          · have hstep := @KvSetupStep.init windowPtr main state i hhost hi
            obtain ⟨last, hpath, hlast⟩ := ih _ (by
              dsimp only [KvHost.initialized, KvHost.started]; omega) (hreach.step hstep) hi rfl
            exact ⟨last, (System.Path.single hstep).trans hpath, hlast⟩
          · exact ⟨state, .refl state, hhost.trans (congrArg KvHost.init (by omega))⟩
      | run i =>
          rw [hhost] at hbound hleft
          dsimp only [KvHost.initialized, KvHost.started] at hbound hleft
          have hstep := @KvSetupStep.run windowPtr main state i hhost
          obtain ⟨last, hpath, hlast⟩ := ih _ (by
            dsimp only [KvHost.initialized, KvHost.started]; omega) (hreach.step hstep) hbound rfl
          exact ⟨last, (System.Path.single hstep).trans hpath, hlast⟩

/-- Handlers that are started can all begin. -/
theorem exists_path_begun (hle : main.beginThread + main.threadNum ≤ maxThreads)
    {state : KvSetup} (hreach : (kvSetupSystem windowPtr main).Reachable state)
    (indices : List Nat) (hindices : ∀ index ∈ indices, index ∈ state.started) :
    ∃ last, (kvSetupSystem windowPtr main).Path state last ∧ last.host = state.host ∧
      last.started = state.started ∧ ∀ index ∈ indices, index ∈ last.begun := by
  induction indices with
  | nil => exact ⟨state, .refl state, rfl, rfl, by simp⟩
  | cons index rest ih =>
      rw [List.forall_mem_cons] at hindices
      obtain ⟨last, hpath, hhost, hstarted, hbegun⟩ := ih hindices.2
      have hindex : index ∈ last.started := by
        rw [hstarted]
        exact hindices.1
      have hctx := ((kvSetupSystem_ok hle (hreach.path hpath)).of_started hindex).1
      refine ⟨_, hpath.step (KvSetupStep.handler hindex (hctx.begin _)), hhost, hstarted, ?_⟩
      rw [List.forall_mem_cons]
      exact ⟨List.mem_cons_self, fun other hother => List.mem_cons_of_mem _ (hbegun other hother)⟩

/-- From every state the setup can come to its end, with all handlers in their loops. -/
theorem exists_path_complete (hle : main.beginThread + main.threadNum ≤ maxThreads)
    {state : KvSetup} (hreach : (kvSetupSystem windowPtr main).Reachable state) :
    ∃ last, (kvSetupSystem windowPtr main).Path state last ∧
      last.host = .init main.threadNum ∧
      ∀ i < main.threadNum, i + main.beginThread ∈ last.begun := by
  obtain ⟨middle, hpath, hhost⟩ := exists_path_started hle hreach
  have hmiddle := hreach.path hpath
  have hstarted := (kvSetupSystem_ok hle hmiddle).started
  rw [hhost] at hstarted
  obtain ⟨last, hpath', hlast, -, hbegun⟩ := exists_path_begun hle hmiddle
    ((List.range main.threadNum).map (· + main.beginThread)) (by
      intro index hmem
      obtain ⟨i, hi, rfl⟩ := List.mem_map.mp hmem
      exact (hstarted _).mpr ⟨i, List.mem_range.mp hi, rfl⟩)
  refine ⟨last, hpath.trans hpath', hlast.trans hhost, ?_⟩
  intro i hi
  exact hbegun _ (List.mem_map.mpr ⟨i, List.mem_range.mpr hi, rfl⟩)

end Steps

/-- Every run can be completed with all handlers started, and every handler that
has begun points at the table that the host allocated. -/
structure TableShared (windowPtr : WindowPtr) (main : KvMain) : Prop where
  completes : ∀ state, (kvSetupSystem windowPtr main).Reachable state →
    ∃ last, (kvSetupSystem windowPtr main).Path state last ∧
      last.host = .init main.threadNum ∧
      ∀ i < main.threadNum, i + main.beginThread ∈ last.begun
  pointed : ∀ state, (kvSetupSystem windowPtr main).Reachable state →
    ∀ index ∈ state.begun,
      (state.device.devCtxs index).kvElements = main.view windowPtr main.globalAddress

/-- For every first thread and number of threads, with a table that is not seen where
the null address is: all handlers get the table exactly when the first thread is
thread 0, or when there is none. -/
theorem tableShared_iff {windowPtr : WindowPtr} {main : KvMain}
    (hle : main.beginThread + main.threadNum ≤ maxThreads)
    (hview : main.view windowPtr main.globalAddress ≠ main.view windowPtr 0) :
    TableShared windowPtr main ↔ main.beginThread = 0 ∨ main.threadNum = 0 := by
  constructor
  · rintro ⟨hcompletes, hpointed⟩
    by_contra hnot
    rw [not_or] at hnot
    obtain ⟨last, hpath, -, hbegun⟩ := hcompletes _ (.start rfl)
    have hlast := (System.Reachable.start rfl).path hpath
    have hindex := hbegun 0 (Nat.pos_of_ne_zero hnot.2)
    -- The first handler got the null pointer that no init RPC has replaced.
    have htable := ((kvSetupSystem_ok hle hlast).begun _ hindex).2
    rw [hpointed last hlast _ hindex, KvMain.entryPtr, if_neg hnot.1] at htable
    exact hview htable
  · intro hcondition
    refine ⟨fun state hreach => exists_path_complete hle hreach, ?_⟩
    intro state hreach index hbegun
    have hok := kvSetupSystem_ok hle hreach
    obtain ⟨hstarted, htable⟩ := hok.begun index hbegun
    rcases hcondition with hfirst | hnone
    · rw [htable, KvMain.entryPtr, if_pos hfirst]
    · obtain ⟨i, hi, -⟩ := (hok.started index).mp hstarted
      have hlt := hi.trans_le (state.host.started_le_initialized.trans hok.initialized_le)
      omega

/-- Two threads from a given one on, with the table at address 4096 of the device. -/
def twoThreads (beginThread : Nat) : KvMain where
  beginThread
  threadNum := 2
  rqBufferOnHost := false
  kvOnHost := false
  globalAddress := 4096
  globalAddressMkey := 0
  windowId := 0
  rqTransf := fun _ => ⟨0, 0, false⟩
  sqTransf := fun _ => ⟨0, 0, false⟩

/-- Threads 0 and 1 share the table. -/
theorem tableShared_twoThreads : TableShared (fun _ _ address => address) (twoThreads 0) :=
  (tableShared_iff (by decide) (by decide)).mpr (.inl rfl)

/-- With threads 1 and 2, thread 1 begins with a null pointer. -/
theorem tableShared_fails :
    ∃ state, (kvSetupSystem (fun _ _ address => address) (twoThreads 1)).Reachable state ∧
      1 ∈ state.begun ∧ (state.device.devCtxs 1).kvElements = 0 ∧
      ¬ TableShared (fun _ _ address => address) (twoThreads 1) := by
  have hstart : (kvSetupSystem (fun _ _ address => address) (twoThreads 1)).Reachable
      ⟨.loaded, .init 0, [], []⟩ := .start rfl
  have hinit := hstart.step (KvSetupStep.init rfl (by decide : 0 < (twoThreads 1).threadNum))
  have hrun := hinit.step (KvSetupStep.run rfl)
  have hbegun := hrun.step (KvSetupStep.handler (List.mem_singleton_self 1) rfl)
  refine ⟨_, hbegun, List.mem_cons_self, rfl, ?_⟩
  intro hshared
  have htable := hshared.pointed _ hbegun 1 List.mem_cons_self
  exact absurd htable (by decide)

end BenchBF3.Dpa
