import BenchBF3.Foundation.Ledger
import BenchBF3.Foundation.Slots
import BenchBF3.Foundation.System

/-! # The task window of the GDR importer

`post_dma_reqs` keeps up to a batch of DMA tasks in flight. Each has a slot of three
arrays, for the task and its two buffers. The loop posts into the next slot until the
window is full or that slot is still occupied, and then lets the progress engine run
callbacks, which free slots in any order. When the runner stops, the engine is drained.
-/

namespace BenchBF3.Tasks

open Foundation

structure GdrConfig where
  batchSize : BitVec 32
  payload : BitVec 32
  isRead : Bool

inductive GdrMmap
  | localMmap
  | remoteMmap
  deriving DecidableEq, Repr

/-- A buffer of the inventory: the object that is deleted, and its range of a map. -/
structure DocaBuf where
  object : Nat
  mmap : GdrMmap
  offset : BitVec 64
  length : BitVec 64
  deriving DecidableEq, Repr

structure MemcpyTask where
  object : Nat
  src : DocaBuf
  dst : DocaBuf
  userData : Nat
  deriving DecidableEq, Repr

/-- The three objects that are created for a task. -/
def MemcpyTask.objects (task : MemcpyTask) : List Nat :=
  [task.src.object, task.dst.object, task.object]

inductive ImporterPc
  | head
  | post
  | poll
  | drain
  | drainPoll
  | done
  deriving DecidableEq, Repr

/-- The `task_config` of a thread. The window holds `now_index`, `finish_index` and
`task_buffers`, and the tasks that the engine has. -/
structure TaskConfig where
  pc : ImporterPc
  window : SlotWindow MemcpyTask
  taskSrcBuf : Nat → Option DocaBuf
  taskDstBuf : Nat → Option DocaBuf
  numOpsFinished : BitVec 64
  ledger : Ledger

def TaskConfig.init : TaskConfig where
  pc := .head
  window := .empty
  taskSrcBuf := fun _ => none
  taskDstBuf := fun _ => none
  numOpsFinished := 0
  ledger := .empty

def GdrConfig.size (config : GdrConfig) : Nat := config.batchSize.toNat

/-- The buffers and the task for a slot, created in this order. -/
def GdrConfig.memcpyTask (config : GdrConfig) (index object : Nat) : MemcpyTask :=
  let payload := config.payload.setWidth 64
  let remoteOffset := BitVec.ofNat 64 index * payload
  let localOffset := BitVec.ofNat 64 index * payload
  { object := object + 2
    src :=
      if config.isRead then ⟨object, .remoteMmap, remoteOffset, payload⟩
      else ⟨object, .localMmap, localOffset, payload⟩
    dst :=
      if config.isRead then ⟨object + 1, .localMmap, localOffset, payload⟩
      else ⟨object + 1, .remoteMmap, remoteOffset, payload⟩
    userData := index }

/-- One round of the inner loop that posts. -/
def TaskConfig.postOne (config : GdrConfig) (state : TaskConfig) : TaskConfig :=
  let index := state.window.place config.size
  let task := config.memcpyTask index state.ledger.created
  { state with
    window := state.window.issue config.size task
    taskSrcBuf := Function.update state.taskSrcBuf index (some task.src)
    taskDstBuf := Function.update state.taskDstBuf index (some task.dst)
    ledger := state.ledger.create 3 }

/-- The callback deletes what it finds at the index that the task carries. -/
def TaskConfig.completeCallback (state : TaskConfig) (task : MemcpyTask)
    (rest : List (Nat × MemcpyTask)) : TaskConfig :=
  let index := task.userData
  { state with
    numOpsFinished := state.numOpsFinished + 1
    ledger := state.ledger.delete
      ((state.taskSrcBuf index).toList.map DocaBuf.object ++
        (state.taskDstBuf index).toList.map DocaBuf.object ++
        (state.window.slots index).toList.map MemcpyTask.object)
    window := state.window.release index rest }

inductive ImporterAction
  | enter
  | stop
  | post
  | leave
  | complete
  | polled
  | drain
  | finish
  deriving DecidableEq, Repr

/-- The window is not full, as the inner loop tests it. -/
def TaskConfig.HasRoom (config : GdrConfig) (state : TaskConfig) : Prop :=
  state.window.inFlight < config.batchSize.setWidth 64

instance TaskConfig.decidableHasRoom (config : GdrConfig) (state : TaskConfig) :
    Decidable (state.HasRoom config) :=
  inferInstanceAs (Decidable (_ < _))

inductive ImporterStep (config : GdrConfig) : TaskConfig → ImporterAction → TaskConfig → Prop
  | enter {state : TaskConfig} (hpc : state.pc = .head) :
      ImporterStep config state .enter { state with pc := .post }
  | stop {state : TaskConfig} (hpc : state.pc = .head) :
      ImporterStep config state .stop { state with pc := .drain }
  | post {state : TaskConfig} (hpc : state.pc = .post) (hroom : state.HasRoom config)
      (hfree : state.window.slots (state.window.place config.size) = none) :
      ImporterStep config state .post (state.postOne config)
  /-- The loop ends on a full window, and breaks on an occupied slot. -/
  | leave {state : TaskConfig} (hpc : state.pc = .post)
      (hbreak : ¬ state.HasRoom config ∨
        state.window.slots (state.window.place config.size) ≠ none) :
      ImporterStep config state .leave { state with pc := .poll }
  | complete {state : TaskConfig} (hpc : state.pc = .poll ∨ state.pc = .drainPoll)
      {before after : List (Nat × MemcpyTask)} {slot : Nat} {task : MemcpyTask}
      (hpending : state.window.pending = before ++ (slot, task) :: after) :
      ImporterStep config state .complete (state.completeCallback task (before ++ after))
  | polled {state : TaskConfig} (hpc : state.pc = .poll) :
      ImporterStep config state .polled { state with pc := .head }
  | drainPolled {state : TaskConfig} (hpc : state.pc = .drainPoll) :
      ImporterStep config state .polled { state with pc := .drain }
  /-- The engine is polled while `get_num_inflight` is positive. -/
  | drain {state : TaskConfig} (hpc : state.pc = .drain) (hsome : 0 < state.window.pending.length) :
      ImporterStep config state .drain { state with pc := .drainPoll }
  | finish {state : TaskConfig} (hpc : state.pc = .drain)
      (hnone : ¬ 0 < state.window.pending.length) :
      ImporterStep config state .finish { state with pc := .done }

def importerSystem (config : GdrConfig) : System TaskConfig ImporterAction where
  start state := state = .init
  step := ImporterStep config

/-! ## Ranges of the tasks -/

def DocaBuf.Disjoint (first second : DocaBuf) : Prop :=
  first.mmap = second.mmap →
    first.offset.toNat + first.length.toNat ≤ second.offset.toNat ∨
      second.offset.toNat + second.length.toNat ≤ first.offset.toNat

/-- No buffer of the one task shares a byte with a buffer of the other. -/
def MemcpyTask.Disjoint (first second : MemcpyTask) : Prop :=
  ∀ buf ∈ [first.src, first.dst], ∀ other ∈ [second.src, second.dst], buf.Disjoint other

section Ranges

variable {config : GdrConfig}

/-- The offset of a slot does not overflow: both factors have 32 bits. -/
theorem toNat_slotOffset {index : Nat} (hindex : index < config.size) :
    (BitVec.ofNat 64 index * config.payload.setWidth 64).toNat =
      index * config.payload.toNat := by
  have hsize : config.size < 2 ^ 32 := config.batchSize.isLt
  have hpayload := config.payload.isLt
  have hproduct : index * config.payload.toNat < 2 ^ 32 * 2 ^ 32 :=
    Nat.mul_lt_mul'' (hindex.trans hsize) hpayload
  rw [BitVec.toNat_mul, BitVec.toNat_ofNat, BitVec.toNat_setWidth,
    Nat.mod_eq_of_lt (by omega : index < 2 ^ 64),
    Nat.mod_eq_of_lt (by omega : config.payload.toNat < 2 ^ 64)]
  exact Nat.mod_eq_of_lt hproduct

/-- Every buffer of a task has the range of the task's slot. -/
theorem memcpyTask_buf {index object : Nat} (hindex : index < config.size) {buf : DocaBuf}
    (hbuf : buf ∈ [(config.memcpyTask index object).src, (config.memcpyTask index object).dst]) :
    buf.offset.toNat = index * config.payload.toNat ∧
      buf.length.toNat = config.payload.toNat := by
  have hoffset := toNat_slotOffset hindex
  have hlength : (config.payload.setWidth 64).toNat = config.payload.toNat :=
    BitVec.toNat_setWidth_of_le (by decide)
  simp only [List.mem_cons, List.not_mem_nil, or_false] at hbuf
  rcases hbuf with rfl | rfl <;> simp only [GdrConfig.memcpyTask] <;> split <;>
    exact ⟨hoffset, hlength⟩

theorem memcpyTask_disjoint {first second object other : Nat} (hfirst : first < config.size)
    (hsecond : second < config.size) (hne : first ≠ second) :
    (config.memcpyTask first object).Disjoint (config.memcpyTask second other) := by
  intro buf hbuf buf' hbuf' _
  obtain ⟨hoffset, hlength⟩ := memcpyTask_buf hfirst hbuf
  obtain ⟨hoffset', hlength'⟩ := memcpyTask_buf hsecond hbuf'
  rw [hoffset, hlength, hoffset', hlength', ← Nat.succ_mul, ← Nat.succ_mul]
  rcases Nat.lt_or_gt_of_ne hne with hlt | hgt
  · exact .inl (Nat.mul_le_mul_right _ hlt)
  · exact .inr (Nat.mul_le_mul_right _ hgt)

end Ranges

/-! ## The invariant -/

/-- The objects of the tasks in flight. -/
def TaskConfig.used (state : TaskConfig) : List Nat :=
  state.window.pending.flatMap fun entry => entry.2.objects

structure TaskConfig.Ok (config : GdrConfig) (state : TaskConfig) : Prop where
  valid : state.window.Valid config.size
  /-- A task in flight was made for its slot, and its buffers are still there. -/
  made : ∀ slot task, (slot, task) ∈ state.window.pending →
    (∃ object, task = config.memcpyTask slot object) ∧
      state.taskSrcBuf slot = some task.src ∧ state.taskDstBuf slot = some task.dst
  owns : state.ledger.Owns state.used
  /-- What else is in the arrays of the buffers was deleted. -/
  stale : ∀ slot buf, state.window.slots slot = none →
    state.taskSrcBuf slot = some buf ∨ state.taskDstBuf slot = some buf →
    buf.object ∈ state.ledger.deleted
  finished : state.numOpsFinished = state.window.finished
  drained : state.pc = .done → state.window.pending = []

section Steps

variable {config : GdrConfig} {state next : TaskConfig} {action : ImporterAction}

theorem TaskConfig.hasRoom_iff : state.HasRoom config ↔
    state.window.inFlight.toNat < config.size := by
  have hwidth : (config.batchSize.setWidth 64).toNat = config.batchSize.toNat :=
    BitVec.toNat_setWidth_of_le (by decide)
  rw [TaskConfig.HasRoom, BitVec.lt_def, hwidth]
  rfl

theorem TaskConfig.Ok.postOne (hok : state.Ok config) (hbatch : 1 ≤ config.size)
    (hpc : state.pc = .post) (hroom : state.HasRoom config)
    (hfree : state.window.slots (state.window.place config.size) = none) :
    (state.postOne config).Ok config where
  valid := hok.valid.issue hbatch (config.batchSize.isLt.trans (by decide))
    (TaskConfig.hasRoom_iff.mp hroom) hfree _
  made := by
    intro slot task hentry
    rcases List.mem_append.mp hentry with hold | hnew
    · -- The new task is in a free slot, so it leaves the others' buffers alone.
      have hother : slot ≠ state.window.place config.size :=
        SlotWindow.ne_place_of_some hfree ((hok.valid.slots_eq_some _ task).mpr hold)
      obtain ⟨hmade, hsrc, hdst⟩ := hok.made slot task hold
      refine ⟨hmade, ?_, ?_⟩
      · exact (Function.update_of_ne hother _ _).trans hsrc
      · exact (Function.update_of_ne hother _ _).trans hdst
    · obtain ⟨rfl, rfl⟩ := Prod.mk.inj (List.mem_singleton.mp hnew)
      exact ⟨⟨_, rfl⟩, Function.update_self .., Function.update_self ..⟩
  owns := by
    have hcreated := hok.owns.create 3
    change (state.ledger.create 3).Owns ((state.window.pending ++ [_]).flatMap _)
    rw [List.flatMap_append]
    refine hcreated.perm (.of_eq ?_)
    simp [TaskConfig.used, MemcpyTask.objects, GdrConfig.memcpyTask, List.range'_succ, apply_ite]
  stale := by
    intro slot buf hnone hbuf
    have hother : slot ≠ state.window.place config.size := by
      rintro rfl
      exact absurd (hnone.symm.trans (Function.update_self ..)) nofun
    simp only [TaskConfig.postOne, SlotWindow.issue, Function.update_of_ne hother] at hnone hbuf
    exact hok.stale slot buf hnone hbuf
  finished := hok.finished
  drained := fun hdone => absurd (hpc.symm.trans hdone) nofun

/-- A task in flight carries the index of its slot. -/
theorem TaskConfig.Ok.userData (hok : state.Ok config) {slot : Nat} {task : MemcpyTask}
    (hentry : (slot, task) ∈ state.window.pending) : task.userData = slot := by
  obtain ⟨⟨object, rfl⟩, -⟩ := hok.made slot task hentry
  rfl

/-- The callback of a task in flight deletes the objects of that task. -/
theorem TaskConfig.Ok.deletes (hok : state.Ok config) {slot : Nat} {task : MemcpyTask}
    (hentry : (slot, task) ∈ state.window.pending) (rest : List (Nat × MemcpyTask)) :
    (state.completeCallback task rest).ledger = state.ledger.delete task.objects := by
  obtain ⟨⟨object, rfl⟩, hsrc, hdst⟩ := hok.made slot task hentry
  have hslot := (hok.valid.slots_eq_some _ _).mpr hentry
  change state.ledger.delete (_ ++ _ ++ _) = _
  simp only [GdrConfig.memcpyTask] at hsrc hdst hslot ⊢
  rw [hsrc, hdst, hslot]
  rfl

theorem TaskConfig.Ok.complete (hok : state.Ok config)
    (hpc : state.pc = .poll ∨ state.pc = .drainPoll) {before after : List (Nat × MemcpyTask)}
    {slot : Nat} {task : MemcpyTask}
    (hpending : state.window.pending = before ++ (slot, task) :: after) :
    (state.completeCallback task (before ++ after)).Ok config := by
  have hentry : (slot, task) ∈ state.window.pending := by simp [hpending]
  have hdeletes := hok.deletes hentry (before ++ after)
  obtain ⟨-, hsrc, hdst⟩ := hok.made slot task hentry
  have hdata := hok.userData hentry
  have hvalid : (state.completeCallback task (before ++ after)).window.Valid config.size := by
    simpa only [TaskConfig.completeCallback, hdata] using hok.valid.release hpending
  refine ⟨hvalid, ?_, ?_, ?_, ?_, ?_⟩
  · intro place other hother
    exact hok.made place other (SlotWindow.mem_pending_of_rest hpending hother)
  · rw [hdeletes]
    apply Ledger.Owns.delete
    refine hok.owns.perm ?_
    change (task.objects ++ (before ++ after).flatMap _).Perm (state.window.pending.flatMap _)
    rw [hpending, List.flatMap_append, List.flatMap_append, List.flatMap_cons]
    exact List.perm_append_comm_assoc ..
  · intro place buf hnone hbuf
    rw [hdeletes]
    change buf.object ∈ state.ledger.deleted ++ task.objects
    rw [List.mem_append]
    simp only [TaskConfig.completeCallback, hdata, SlotWindow.release] at hnone hbuf
    by_cases hplace : place = slot
    · subst place
      right
      rw [hsrc, hdst] at hbuf
      rcases hbuf with hbuf | hbuf <;> obtain rfl := Option.some.inj hbuf <;>
        simp [MemcpyTask.objects]
    · left
      rw [Function.update_of_ne hplace] at hnone
      exact hok.stale place buf hnone hbuf
  · exact congrArg (· + 1) hok.finished
  · intro hdone
    change state.pc = .done at hdone
    rcases hpc with hpc | hpc <;> simp [hpc] at hdone

/-- A step that only moves control. -/
theorem TaskConfig.Ok.withPc (hok : state.Ok config) {pc : ImporterPc}
    (hdrained : pc = .done → state.window.pending = []) : Ok config { state with pc } :=
  { hok with drained := hdrained }

theorem ImporterStep.ok (hstep : ImporterStep config state action next)
    (hbatch : 1 ≤ config.size) (hok : state.Ok config) : next.Ok config := by
  cases hstep with
  | post hpc hroom hfree =>
      exact hok.postOne hbatch hpc hroom hfree
  | complete hpc hpending =>
      exact hok.complete hpc hpending
  | finish _ hnone =>
      exact hok.withPc fun _ => List.length_eq_zero_iff.mp (Nat.eq_zero_of_not_pos hnone)
  | _ => exact hok.withPc nofun

theorem importerSystem_ok (hbatch : 1 ≤ config.size)
    (hreach : (importerSystem config).Reachable state) : state.Ok config := by
  apply hreach.invariant
  · intro state hstart
    rw [hstart]
    exact ⟨SlotWindow.empty_valid _, nofun, .nil, by simp [TaskConfig.init], rfl, nofun⟩
  · intro state action next _ hok hstep
    exact ImporterStep.ok hstep hbatch hok

end Steps

/-! ## What the window guarantees -/

structure TaskConfig.Guaranteed (config : GdrConfig) (state : TaskConfig) : Prop where
  occupied : (state.window.occupied config.size).card =
    (state.window.issued - state.window.finished).toNat
  occupied_le : (state.window.occupied config.size).card ≤ config.size
  /-- An occupied slot changes only by the deletion of what it holds. -/
  kept : ∀ action next, ImporterStep config state action next →
    ∀ slot task, state.window.slots slot = some task →
      next.window.slots slot = some task ∨
        next.window.slots slot = none ∧ task.objects ⊆ next.ledger.deleted
  /-- A buffer is written over only after it was deleted. -/
  buffers : ∀ action next, ImporterStep config state action next → ∀ slot buf,
    (state.taskSrcBuf slot = some buf ∧ next.taskSrcBuf slot ≠ some buf ∨
      state.taskDstBuf slot = some buf ∧ next.taskDstBuf slot ≠ some buf) →
    buf.object ∈ state.ledger.deleted
  /-- No object is deleted twice, and those of the tasks in flight are not deleted. -/
  deleted_nodup : state.ledger.deleted.Nodup
  deleted_iff : ∀ object, object ∈ state.ledger.deleted ↔
    object < state.ledger.created ∧ object ∉ state.used
  disjoint : state.window.pending.Pairwise fun first second => first.2.Disjoint second.2
  /-- The drain can always go on to its end, and then all is done. -/
  drains : state.pc = .drain →
    ∃ final, (importerSystem config).Path state final ∧ final.pc = .done
  drained : state.pc = .done → (∀ slot, state.window.slots slot = none) ∧
    state.window.finished = state.window.issued ∧
    ∀ object, object < state.ledger.created → state.ledger.deleted.count object = 1

section Guaranteed

variable {config : GdrConfig} {state next : TaskConfig} {action : ImporterAction}

theorem ImporterStep.kept (hstep : ImporterStep config state action next) (hok : state.Ok config)
    {slot : Nat} {task : MemcpyTask} (hslot : state.window.slots slot = some task) :
    next.window.slots slot = some task ∨
      next.window.slots slot = none ∧ task.objects ⊆ next.ledger.deleted := by
  cases hstep with
  | post hpc hroom hfree =>
      left
      have hother := SlotWindow.ne_place_of_some hfree hslot
      exact (Function.update_of_ne hother _ _).trans hslot
  | @complete hpc before after place completed hpending =>
      have hentry : (place, completed) ∈ state.window.pending := by simp [hpending]
      have hdata := hok.userData hentry
      by_cases hplace : slot = place
      · right
        subst slot
        rw [(hok.valid.slots_eq_some _ _).mpr hentry] at hslot
        obtain rfl := Option.some.inj hslot
        constructor
        · change Function.update state.window.slots completed.userData none place = none
          rw [hdata, Function.update_self]
        · rw [hok.deletes hentry]
          exact List.subset_append_right _ _
      · left
        change Function.update state.window.slots completed.userData none slot = some task
        rwa [hdata, Function.update_of_ne hplace]
  | _ => exact .inl hslot

theorem ImporterStep.buffers (hstep : ImporterStep config state action next)
    (hok : state.Ok config) {slot : Nat} {buf : DocaBuf}
    (hchanged : state.taskSrcBuf slot = some buf ∧ next.taskSrcBuf slot ≠ some buf ∨
      state.taskDstBuf slot = some buf ∧ next.taskDstBuf slot ≠ some buf) :
    buf.object ∈ state.ledger.deleted := by
  cases hstep with
  | post hpc hroom hfree =>
      by_cases hplace : slot = state.window.place config.size
      · subst slot
        exact hok.stale _ buf hfree (hchanged.imp And.left And.left)
      · simp [TaskConfig.postOne, hplace] at hchanged
  | _ => exact absurd hchanged (by simp [TaskConfig.completeCallback])

theorem TaskConfig.Ok.disjoint (hok : state.Ok config) :
    state.window.pending.Pairwise fun first second => first.2.Disjoint second.2 := by
  have hnodup := List.pairwise_map.mp hok.valid.nodup
  refine hnodup.imp_of_mem ?_
  rintro ⟨first, task⟩ ⟨second, other⟩ hfirst hsecond hne
  obtain ⟨⟨object, rfl⟩, -⟩ := hok.made first task hfirst
  obtain ⟨⟨object', rfl⟩, -⟩ := hok.made second other hsecond
  exact memcpyTask_disjoint (hok.valid.slot_lt _ hfirst) (hok.valid.slot_lt _ hsecond) hne

/-- While draining, the tasks in flight can complete one after the other. -/
theorem drain_ends (count : Nat) (hpc : state.pc = .drain)
    (hcount : state.window.pending.length = count) :
    ∃ final, (importerSystem config).Path state final ∧ final.pc = .done := by
  induction count generalizing state with
  | zero =>
      have hfinish : (importerSystem config).Path state { state with pc := .done } :=
        .single (ImporterStep.finish hpc (by omega))
      exact ⟨_, hfinish, rfl⟩
  | succ count ih =>
      obtain ⟨⟨slot, task⟩, rest, hpending⟩ := List.exists_cons_of_length_eq_add_one hcount
      have hpoll : (importerSystem config).Path state { state with pc := .drainPoll } :=
        .single (ImporterStep.drain hpc (by omega))
      have hcomplete := hpoll.step (ImporterStep.complete (.inr rfl)
        (show state.window.pending = [] ++ (slot, task) :: rest from hpending))
      have hpolled := hcomplete.step (ImporterStep.drainPolled rfl)
      have hfewer : rest.length = count := by
        rw [hpending] at hcount
        exact Nat.succ.inj hcount
      obtain ⟨final, hfinal, hdone⟩ :=
        @ih { ({ state with pc := .drainPoll } : TaskConfig).completeCallback task rest with
          pc := .drain } rfl hfewer
      exact ⟨final, hpolled.trans hfinal, hdone⟩

theorem TaskConfig.Ok.drained_all (hok : state.Ok config) (hpc : state.pc = .done) :
    (∀ slot, state.window.slots slot = none) ∧ state.window.finished = state.window.issued ∧
    ∀ object, object < state.ledger.created → state.ledger.deleted.count object = 1 := by
  have hnone := hok.drained hpc
  refine ⟨?_, ?_, ?_⟩
  · intro slot
    rw [hok.valid.isNone_iff, hnone]
    exact List.not_mem_nil
  · have hcount := hok.valid.inFlight
    rw [hnone] at hcount
    have hzero : state.window.inFlight = 0 := BitVec.eq_of_toNat_eq hcount
    exact (sub_eq_zero.mp hzero).symm
  · intro object hcreated
    have howns := hok.owns
    rw [TaskConfig.used, hnone] at howns
    exact howns.count_deleted hcreated

/-- For every batch size, in every run, with callbacks in any order. -/
theorem importer_guaranteed (hbatch : 1 ≤ config.batchSize.toNat)
    (hreach : (importerSystem config).Reachable state) : state.Guaranteed config := by
  have hok := importerSystem_ok hbatch hreach
  refine ⟨hok.valid.card_occupied, ?_, ?_, ?_, hok.owns.deleted_nodup, hok.owns.mem_deleted_iff,
    hok.disjoint, fun hpc => drain_ends _ hpc rfl, hok.drained_all⟩
  · rw [hok.valid.card_occupied, hok.valid.inFlight]
    exact hok.valid.pending_le
  · intro action next hstep slot task hslot
    exact ImporterStep.kept hstep hok hslot
  · intro action next hstep slot buf hchanged
    exact ImporterStep.buffers hstep hok hchanged

end Guaranteed

/-- Two tasks at once, copying from the remote map. -/
def twoTasks : GdrConfig := ⟨2, 64, true⟩

/-- Two tasks are posted and the second is completed first; the loop then breaks on
the slot of the first. -/
theorem twoTasks_reachable : ∃ state, (importerSystem twoTasks).Reachable state ∧
    state.window.pending.length = 1 ∧ state.ledger.deleted = [3, 4, 5] := by
  have hstart : (importerSystem twoTasks).Reachable .init := .start rfl
  have henter := hstart.step (ImporterStep.enter rfl)
  have hfirst := henter.step (ImporterStep.post rfl (by decide) rfl)
  have hsecond := hfirst.step (ImporterStep.post rfl (by decide) rfl)
  have hleave := hsecond.step (ImporterStep.leave rfl (.inl (by decide)))
  have hcomplete := hleave.step (@ImporterStep.complete twoTasks _ (.inl rfl)
    [(0, twoTasks.memcpyTask 0 0)] [] 1 (twoTasks.memcpyTask 1 3) rfl)
  exact ⟨_, hcomplete, rfl, rfl⟩

theorem importer_guaranteed_twoTasks : ∃ state, (importerSystem twoTasks).Reachable state ∧
    state.window.pending.length = 1 ∧ state.ledger.deleted = [3, 4, 5] ∧
    state.Guaranteed twoTasks := by
  obtain ⟨state, hreach, hpending, hdeleted⟩ := twoTasks_reachable
  exact ⟨state, hreach, hpending, hdeleted, importer_guaranteed (by decide) hreach⟩

end BenchBF3.Tasks
