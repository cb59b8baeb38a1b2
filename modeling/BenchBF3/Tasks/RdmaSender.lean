import BenchBF3.Foundation.Ledger
import BenchBF3.Foundation.Ring
import BenchBF3.Foundation.Slots
import BenchBF3.Foundation.System

/-! # The submission loop of the RDMA sender

`do_rdma_send` has the slots and the window of the GDR importer. Its inner loop goes on
with `continue` when the next slot is occupied, where the importer breaks: nothing
changes, since callbacks only run in `poll_progress`, so the loop never ends. It ends
exactly when every slot that it still has to fill is free. Completions in order keep
it so.
-/

namespace BenchBF3.Tasks

open Foundation

structure RdmaConfig where
  batchSize : BitVec 64
  payload : BitVec 64

/-- A buffer of the inventory, a range of the local buffer. -/
structure LocalBuf where
  object : Nat
  offset : BitVec 64
  length : BitVec 64
  deriving DecidableEq, Repr

structure SendTask where
  object : Nat
  localBuf : LocalBuf
  userData : Nat
  deriving DecidableEq, Repr

inductive SenderPc
  | head
  | submit
  | poll
  | drain
  | drainPoll
  | done
  deriving DecidableEq, Repr

/-- The `rdma_task_send_config` of a thread. The window holds `now_index`,
`finish_index` and `task_buffers`, and the tasks that the engine has. -/
structure RdmaSender where
  pc : SenderPc
  window : SlotWindow SendTask
  taskLocalBuf : Nat → Option LocalBuf
  numOpsFinished : BitVec 64
  ledger : Ledger

def RdmaSender.init : RdmaSender where
  pc := .head
  window := .empty
  taskLocalBuf := fun _ => none
  numOpsFinished := 0
  ledger := .empty

def RdmaConfig.size (config : RdmaConfig) : Nat := config.batchSize.toNat

def RdmaConfig.sendTask (config : RdmaConfig) (index object : Nat) : SendTask where
  object := object + 1
  localBuf := ⟨object, BitVec.ofNat 64 index * config.payload, config.payload⟩
  userData := index

def RdmaSender.HasRoom (config : RdmaConfig) (state : RdmaSender) : Prop :=
  state.window.inFlight < config.batchSize

instance RdmaSender.decidableHasRoom (config : RdmaConfig) (state : RdmaSender) :
    Decidable (state.HasRoom config) :=
  inferInstanceAs (Decidable (_ < _))

/-- What follows the test of the slot. -/
def RdmaSender.submitOne (config : RdmaConfig) (state : RdmaSender) : RdmaSender :=
  let index := state.window.place config.size
  let task := config.sendTask index state.ledger.created
  { state with
    window := state.window.issue config.size task
    taskLocalBuf := Function.update state.taskLocalBuf index (some task.localBuf)
    ledger := state.ledger.create 2 }

/-- One iteration of the inner loop; on an occupied slot it is the `continue`. -/
def RdmaSender.submitIteration (config : RdmaConfig) (state : RdmaSender) : RdmaSender :=
  if state.HasRoom config then
    if (state.window.slots (state.window.place config.size)).isSome then state
    else state.submitOne config
  else { state with pc := .poll }

/-- Some iterations, as long as the loop has not ended. -/
def RdmaSender.submitLoop (config : RdmaConfig) : Nat → RdmaSender → RdmaSender
  | 0, state => state
  | count + 1, state =>
      if state.pc = .submit then submitLoop config count (state.submitIteration config)
      else state

def RdmaSender.completeCallback (state : RdmaSender) (task : SendTask)
    (rest : List (Nat × SendTask)) : RdmaSender :=
  let index := task.userData
  { state with
    numOpsFinished := state.numOpsFinished + 1
    ledger := state.ledger.delete
      ((state.taskLocalBuf index).toList.map LocalBuf.object ++
        (state.window.slots index).toList.map SendTask.object)
    window := state.window.release index rest }

/-- A completion is labelled with the place of its task among those in flight. -/
inductive RdmaAction
  | enter
  | stop
  | submit
  | complete (position : Nat)
  | polled
  | drain
  | finish
  deriving DecidableEq, Repr

inductive RdmaStep (config : RdmaConfig) : RdmaSender → RdmaAction → RdmaSender → Prop
  | enter {state : RdmaSender} (hpc : state.pc = .head) :
      RdmaStep config state .enter { state with pc := .submit }
  | stop {state : RdmaSender} (hpc : state.pc = .head) :
      RdmaStep config state .stop { state with pc := .drain }
  | submit {state : RdmaSender} (hpc : state.pc = .submit) :
      RdmaStep config state .submit (state.submitIteration config)
  | complete {state : RdmaSender} (hpc : state.pc = .poll ∨ state.pc = .drainPoll)
      {before after : List (Nat × SendTask)} {slot : Nat} {task : SendTask}
      (hpending : state.window.pending = before ++ (slot, task) :: after) :
      RdmaStep config state (.complete before.length)
        (state.completeCallback task (before ++ after))
  | polled {state : RdmaSender} (hpc : state.pc = .poll) :
      RdmaStep config state .polled { state with pc := .head }
  | drainPolled {state : RdmaSender} (hpc : state.pc = .drainPoll) :
      RdmaStep config state .polled { state with pc := .drain }
  | drain {state : RdmaSender} (hpc : state.pc = .drain)
      (hsome : state.window.issued ≠ state.window.finished) :
      RdmaStep config state .drain { state with pc := .drainPoll }
  | finish {state : RdmaSender} (hpc : state.pc = .drain)
      (hnone : state.window.issued = state.window.finished) :
      RdmaStep config state .finish { state with pc := .done }

def rdmaSystem (config : RdmaConfig) : System RdmaSender RdmaAction where
  start state := state = .init
  step := RdmaStep config

/-! ## The end of the loop -/

/-- How many slots the loop has yet to fill. -/
def RdmaSender.room (config : RdmaConfig) (state : RdmaSender) : Nat :=
  config.size - state.window.inFlight.toNat

section Loop

variable {config : RdmaConfig} {state : RdmaSender}

theorem RdmaSender.hasRoom_iff : state.HasRoom config ↔ state.room config ≠ 0 := by
  rw [RdmaSender.HasRoom, BitVec.lt_def, RdmaSender.room, RdmaConfig.size]
  omega

theorem RdmaSender.room_submitOne (hroom : state.HasRoom config) :
    (state.submitOne config).room config = state.room config - 1 := by
  have hlt : state.window.inFlight.toNat < config.batchSize.toNat := hroom
  have hsize := config.batchSize.isLt
  have hissue := state.window.toNat_inFlight_issue config.size
    (config.sendTask (state.window.place config.size) state.ledger.created) (by omega)
  unfold RdmaSender.room
  change _ - (state.window.issue _ _).inFlight.toNat = _
  rw [hissue]
  omega

/-- An occupied slot holds the loop for ever. -/
theorem RdmaSender.submitLoop_of_occupied (hpc : state.pc = .submit)
    (hroom : state.HasRoom config)
    (hoccupied : (state.window.slots (state.window.place config.size)).isSome) (count : Nat) :
    submitLoop config count state = state := by
  have hsame : state.submitIteration config = state := by
    rw [submitIteration, if_pos hroom, if_pos hoccupied]
  induction count with
  | zero => rfl
  | succ count ih => rw [submitLoop, if_pos hpc, hsame, ih]

/-- When the slots ahead are free, the loop fills them and ends. -/
theorem RdmaSender.submitLoop_ends {room : Nat} (hpc : state.pc = .submit)
    (hroom : state.room config = room) (hfree : state.window.FreeAhead config.size room) :
    (submitLoop config (room + 1) state).pc = .poll ∧
      (submitLoop config (room + 1) state).window.issued =
        state.window.issued + BitVec.ofNat 64 room := by
  induction room generalizing state with
  | zero =>
      have hfull : ¬ state.HasRoom config := fun hroom' => hasRoom_iff.mp hroom' hroom
      rw [submitLoop, if_pos hpc, submitIteration, if_neg hfull]
      exact ⟨rfl, (BitVec.add_zero _).symm⟩
  | succ room ih =>
      have hsome : state.HasRoom config := hasRoom_iff.mpr (by omega)
      obtain ⟨hnone, hrest⟩ := (SlotWindow.freeAhead_succ
        (config.sendTask (state.window.place config.size) state.ledger.created)).mp hfree
      have hstep : state.submitIteration config = state.submitOne config := by
        rw [submitIteration, if_pos hsome, if_neg (by simp [hnone])]
      have hnext := state.room_submitOne hsome
      rw [submitLoop, if_pos hpc, hstep]
      obtain ⟨hpoll, hissued⟩ := @ih (state.submitOne config) hpc (by omega) hrest
      refine ⟨hpoll, hissued.trans ?_⟩
      change state.window.issued + 1 + _ = _
      rw [BitVec.add_assoc, Nat.add_comm room 1, BitVec.ofNat_add]
      rfl

/-- A loop that ends has filled free slots only. -/
theorem RdmaSender.freeAhead_of_ends {count : Nat} (hpc : state.pc = .submit)
    (hends : (submitLoop config count state).pc = .poll) :
    state.window.FreeAhead config.size (state.room config) := by
  induction count generalizing state with
  | zero => exact absurd (hpc.symm.trans hends) nofun
  | succ count ih =>
      by_cases hroom : state.HasRoom config
      · by_cases hoccupied : (state.window.slots (state.window.place config.size)).isSome
        · rw [submitLoop_of_occupied hpc hroom hoccupied] at hends
          exact absurd (hpc.symm.trans hends) nofun
        · have hstep : state.submitIteration config = state.submitOne config := by
            rw [submitIteration, if_pos hroom, if_neg hoccupied]
          rw [submitLoop, if_pos hpc, hstep] at hends
          have hrest := @ih (state.submitOne config) hpc hends
          have hnonzero := hasRoom_iff.mp hroom
          rw [room_submitOne hroom] at hrest
          obtain ⟨room, hequal⟩ := Nat.exists_eq_succ_of_ne_zero hnonzero
          rw [hequal] at hrest ⊢
          exact (SlotWindow.freeAhead_succ _).mpr ⟨by simpa using hoccupied, hrest⟩
      · rw [hasRoom_iff, not_not] at hroom
        rw [hroom]
        exact nofun

/-- For every state at the head of the outer loop: the inner loop ends, after at most
a batch of submissions, exactly when the slots it has to fill are free. -/
theorem submitLoop_ends_iff (config : RdmaConfig) (state : RdmaSender) :
    (∃ count, (RdmaSender.submitLoop config count { state with pc := .submit }).pc = .poll ∧
      ((RdmaSender.submitLoop config count { state with pc := .submit }).window.issued -
        state.window.issued).toNat ≤ config.batchSize.toNat) ↔
      state.window.FreeAhead config.size
        (config.size - (state.window.issued - state.window.finished).toNat) := by
  constructor
  · rintro ⟨count, hends, -⟩
    exact @RdmaSender.freeAhead_of_ends config { state with pc := .submit } count rfl hends
  · intro hfree
    obtain ⟨hends, hissued⟩ :=
      @RdmaSender.submitLoop_ends config { state with pc := .submit } _ rfl rfl hfree
    refine ⟨_, hends, ?_⟩
    rw [hissued, BitVec.add_comm, BitVec.add_sub_cancel, BitVec.toNat_ofNat]
    exact (Nat.mod_le _ _).trans (Nat.sub_le _ _)

end Loop

/-! ## Completions in order -/

/-- The runs in which only the oldest task in flight is completed. -/
def RdmaSender.OldestFirst (_state : RdmaSender) (action : RdmaAction) : Prop :=
  ∀ position, action = .complete position → position = 0

structure RdmaSender.Ordered (config : RdmaConfig) (state : RdmaSender) : Prop where
  valid : state.window.Valid config.size
  userData : ∀ slot task, (slot, task) ∈ state.window.pending → task.userData = slot
  inOrder : state.window.InOrder config.size

section Ordered

variable {config : RdmaConfig} {state next : RdmaSender} {action : RdmaAction}

theorem RdmaSender.Ordered.submitIteration (hordered : state.Ordered config)
    (hbatch : 1 ≤ config.size) : (state.submitIteration config).Ordered config := by
  unfold RdmaSender.submitIteration
  split
  next hroom =>
    split
    next => exact hordered
    next hfree =>
      refine ⟨hordered.valid.issue hbatch config.batchSize.isLt hroom (by simpa using hfree) _,
        ?_, hordered.inOrder.issue _⟩
      intro slot task hentry
      rcases List.mem_append.mp hentry with hold | hnew
      · exact hordered.userData slot task hold
      · obtain ⟨rfl, rfl⟩ := Prod.mk.inj (List.mem_singleton.mp hnew)
        rfl
  next => exact ⟨hordered.valid, hordered.userData, hordered.inOrder⟩

theorem RdmaSender.Ordered.complete (hordered : state.Ordered config) {slot : Nat}
    {task : SendTask} {rest : List (Nat × SendTask)}
    (hpending : state.window.pending = (slot, task) :: rest) :
    (state.completeCallback task rest).Ordered config := by
  have hdata : task.userData = slot :=
    hordered.userData slot task (hpending ▸ List.mem_cons_self)
  have hwindow : (state.completeCallback task rest).window = state.window.release slot rest := by
    rw [← hdata]
    rfl
  constructor
  · rw [hwindow]
    exact hordered.valid.release (show state.window.pending = [] ++ (slot, task) :: rest
      from hpending)
  · intro place other hother
    exact hordered.userData place other (hpending ▸ List.mem_cons_of_mem _ hother)
  · rw [hwindow]
    exact hordered.inOrder.release hpending

theorem rdmaSystem_ordered (hbatch : 1 ≤ config.size)
    (hreach : ((rdmaSystem config).restrict RdmaSender.OldestFirst).Reachable state) :
    state.Ordered config := by
  apply hreach.invariant
  · intro state hstart
    obtain rfl : state = .init := hstart
    exact ⟨SlotWindow.empty_valid _, nofun, SlotWindow.empty_inOrder _⟩
  · rintro state action next - hordered ⟨holdest, hstep⟩
    cases hstep with
    | submit _ => exact hordered.submitIteration hbatch
    | @complete _ before after slot task hpending =>
        obtain rfl := List.length_eq_zero_iff.mp (holdest before.length rfl)
        exact hordered.complete hpending
    | _ => exact ⟨hordered.valid, hordered.userData, hordered.inOrder⟩

/-- With completions in order the inner loop always ends, for batch sizes that divide
the range of the counts. -/
theorem submitLoop_ends_inOrder (hbatch : 1 ≤ config.size) (hdvd : config.size ∣ 2 ^ 64)
    (hreach : ((rdmaSystem config).restrict RdmaSender.OldestFirst).Reachable state)
    (hpc : state.pc = .submit) :
    ∃ count, (RdmaSender.submitLoop config count state).pc = .poll := by
  have hordered := rdmaSystem_ordered hbatch hreach
  exact ⟨_, (RdmaSender.submitLoop_ends hpc rfl
    (hordered.valid.freeAhead_of_inOrder hdvd hordered.inOrder)).1⟩

end Ordered

/-! ## Completions out of order -/

/-- Two send tasks at once. -/
def twoSends : RdmaConfig := ⟨2, 64⟩

/-- Of two tasks the second is completed first: the loop waits for the slot of the
first and does not let the engine complete it. -/
theorem twoSends_never_ends : ∃ state, (rdmaSystem twoSends).Reachable state ∧
    state.pc = .head ∧ ∀ count,
      (RdmaSender.submitLoop twoSends count { state with pc := .submit }).pc = .submit := by
  have hstart : (rdmaSystem twoSends).Reachable .init := .start rfl
  have henter := hstart.step (RdmaStep.enter rfl)
  have hfirst := henter.step (RdmaStep.submit rfl)
  have hsecond := hfirst.step (RdmaStep.submit rfl)
  have hleave := hsecond.step (RdmaStep.submit rfl)
  have hcomplete := hleave.step (@RdmaStep.complete twoSends _ (.inl rfl)
    [(0, twoSends.sendTask 0 0)] [] 1 (twoSends.sendTask 1 2) rfl)
  have hpolled := hcomplete.step (RdmaStep.polled rfl)
  refine ⟨_, hpolled, rfl, fun count => ?_⟩
  rw [RdmaSender.submitLoop_of_occupied rfl (by decide) (by decide)]

end BenchBF3.Tasks
