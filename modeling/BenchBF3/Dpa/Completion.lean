import BenchBF3.Foundation.Ring
import BenchBF3.Foundation.System

/-! # Completion queues

The NIC writes completions around a ring and marks each with the parity of its
lap; the device polls the entry at its own index and compares the mark with the
owner bit it expects, flipping that bit once a lap. With the NIC at most one
lap ahead, the comparison finds exactly the unconsumed completions, oldest
first, however long the run and across the wrap of the 32-bit index.
-/

namespace BenchBF3.Dpa

open Foundation

/-- A completion with its owner bit. -/
structure Cqe (α : Type) where
  owner : Bool
  value : α

/-- `cq_ctx_t`; the pointer to the current CQE is kept as its position. -/
structure CqCtx where
  cqe : Nat
  cqIdx : BitVec 32
  cqHwOwnerBit : Bool
  cqIdxMask : BitVec 32

/-- `allocate_cq_memory`: all owner bits are set. -/
def allocateCqMemory {α : Type} (blank : α) : Nat → Cqe α := fun _ => ⟨true, blank⟩

def initCq (logDepth : Nat) : CqCtx where
  cqe := 0
  cqIdx := 0
  cqHwOwnerBit := true
  cqIdxMask := ringMask logDepth

/-- `flexio_dev_cqe_get_owner(cqe) != cq_hw_owner_bit`. -/
def CqCtx.ready {α : Type} (ctx : CqCtx) (ring : Nat → Cqe α) : Bool :=
  (ring ctx.cqe).owner != ctx.cqHwOwnerBit

def stepCq (ctx : CqCtx) : CqCtx :=
  let cqIdx := ctx.cqIdx + 1
  { ctx with
    cqIdx
    cqe := (cqIdx &&& ctx.cqIdxMask).toNat
    cqHwOwnerBit := if cqIdx &&& ctx.cqIdxMask = 0 then !ctx.cqHwOwnerBit
      else ctx.cqHwOwnerBit }

/-- The parity of the lap in which the NIC writes a completion. -/
def lapBit (size count : Nat) : Bool := count / size % 2 == 1

/-! ## The consumer's index -/

/-- The context after some number of completions has been consumed. -/
structure CqCtx.At (ctx : CqCtx) (logDepth consumed : Nat) : Prop where
  cqe : ctx.cqe = consumed % 2 ^ logDepth
  cqIdx : ctx.cqIdx = BitVec.ofNat 32 consumed
  cqHwOwnerBit : ctx.cqHwOwnerBit = !lapBit (2 ^ logDepth) consumed
  cqIdxMask : ctx.cqIdxMask = ringMask logDepth

theorem initCq_at (logDepth : Nat) : (initCq logDepth).At logDepth 0 where
  cqe := (Nat.zero_mod _).symm
  cqIdx := rfl
  cqHwOwnerBit := by simp [initCq, lapBit]
  cqIdxMask := rfl

/-- The lap changes exactly when the next position is the first of the ring. -/
theorem lapBit_succ (size count : Nat) :
    lapBit size (count + 1) =
      if (count + 1) % size = 0 then !lapBit size count else lapBit size count := by
  unfold lapBit
  rw [Nat.succ_div]
  have hiff : size ∣ count + 1 ↔ (count + 1) % size = 0 := Nat.dvd_iff_mod_eq_zero
  by_cases hfirst : (count + 1) % size = 0
  · rw [if_pos (hiff.mpr hfirst), if_pos hfirst]
    rcases Nat.mod_two_eq_zero_or_one (count / size) with hparity | hparity
    · simp [Nat.add_mod, hparity]
    · simp [Nat.add_mod, hparity]
  · rw [if_neg (hiff.not.mpr hfirst), if_neg hfirst, Nat.add_zero]

/-- A completion one lap later carries the other bit. -/
theorem lapBit_add_size {size : Nat} (hsize : 0 < size) (count : Nat) :
    lapBit size (count + size) = !lapBit size count := by
  unfold lapBit
  rw [Nat.add_div_right count hsize]
  rcases Nat.mod_two_eq_zero_or_one (count / size) with hparity | hparity
  · simp [Nat.add_mod, hparity]
  · simp [Nat.add_mod, hparity]

theorem CqCtx.At.step {ctx : CqCtx} {logDepth consumed : Nat} (hdepth : logDepth ≤ 32)
    (hat : ctx.At logDepth consumed) : (stepCq ctx).At logDepth (consumed + 1) := by
  have hidx : ctx.cqIdx + 1 = BitVec.ofNat 32 (consumed + 1) := by
    rw [hat.cqIdx, BitVec.ofNat_add]
    rfl
  have hposition : ((ctx.cqIdx + 1) &&& ctx.cqIdxMask).toNat = (consumed + 1) % 2 ^ logDepth := by
    rw [hidx, hat.cqIdxMask]
    exact toNat_and_mask hdepth (consumed + 1)
  have hwrap : (ctx.cqIdx + 1) &&& ctx.cqIdxMask = 0 ↔ (consumed + 1) % 2 ^ logDepth = 0 := by
    rw [← hposition]
    exact ⟨fun hzero => by rw [hzero]; rfl, fun hzero => BitVec.eq_of_toNat_eq hzero⟩
  refine ⟨hposition, hidx, ?_, hat.cqIdxMask⟩
  rw [lapBit_succ]
  simp only [stepCq, hwrap, hat.cqHwOwnerBit]
  split <;> rfl

/-! ## What the ring holds -/

variable {α : Type} {ring : Nat → Cqe α} {logDepth consumed : Nat} {entries : List α}

/-- The ring after the NIC has written `entries`: the unconsumed ones are there
with the bit of their lap, and the cells to be written next still have the bit
of the lap before. -/
structure Published (ring : Nat → Cqe α) (logDepth : Nat) (entries : List α)
    (consumed : Nat) : Prop where
  pending : Window ring (2 ^ logDepth)
    (fun n cqe => cqe.owner = lapBit (2 ^ logDepth) n ∧ entries[n]? = some cqe.value)
    consumed entries.length
  free : Window ring (2 ^ logDepth) (fun n cqe => cqe.owner = !lapBit (2 ^ logDepth) n)
    entries.length (entries.length + 2 ^ logDepth)

theorem allocateCqMemory_published (blank : α) (logDepth : Nat) :
    Published (allocateCqMemory blank) logDepth [] 0 where
  pending := Window.empty _ _ _ _
  free := by
    intro n _ hlt
    have hlap : n / 2 ^ logDepth = 0 := Nat.div_eq_of_lt (by simpa using hlt)
    simp [allocateCqMemory, lapBit, hlap]

/-- The NIC writes the next completion, at most one lap ahead. -/
theorem Published.write (hring : Published ring logDepth entries consumed)
    (hspan : entries.length < consumed + 2 ^ logDepth) (value : α) :
    Published (Function.update ring (entries.length % 2 ^ logDepth)
      ⟨lapBit (2 ^ logDepth) entries.length, value⟩) logDepth (entries ++ [value]) consumed where
  pending := by
    rw [List.length_append, List.length_singleton]
    have hold : Window ring (2 ^ logDepth) (fun n cqe => cqe.owner = lapBit (2 ^ logDepth) n ∧
        (entries ++ [value])[n]? = some cqe.value) consumed entries.length := by
      refine hring.pending.imp ?_
      intro n cqe _ hlt hcqe
      rwa [List.getElem?_append_left hlt]
    exact hold.push hspan ⟨rfl, by simp⟩
  free := by
    rw [List.length_append, List.length_singleton]
    intro n hle hlt
    rcases Nat.lt_succ_iff_lt_or_eq.mp (show n < entries.length + 2 ^ logDepth + 1 by omega) with
      hbefore | rfl
    · rw [Function.update_of_ne (mod_ne_of_lt (show entries.length < n by omega) hbefore).symm]
      exact hring.free n (by omega) hbefore
    · -- The cell just written comes round again one lap later.
      rw [Nat.add_mod_right, Function.update_self, lapBit_add_size (Nat.two_pow_pos logDepth),
        Bool.not_not]

theorem Published.consume (hring : Published ring logDepth entries consumed) :
    Published ring logDepth entries (consumed + 1) :=
  ⟨hring.pending.mono (Nat.le_succ consumed) le_rfl, hring.free⟩

/-- The owner test finds exactly the unconsumed completions, oldest first. -/
theorem Published.ready_iff {ctx : CqCtx} (hring : Published ring logDepth entries consumed)
    (hat : ctx.At logDepth consumed) (hle : consumed ≤ entries.length) :
    (ctx.ready ring = true ↔ consumed < entries.length) ∧
      (ctx.ready ring = true → entries[consumed]? = some (ring ctx.cqe).value) := by
  rw [CqCtx.ready, hat.cqe, hat.cqHwOwnerBit]
  rcases hle.lt_or_eq with hlt | heq
  · obtain ⟨howner, hvalue⟩ := hring.pending consumed le_rfl hlt
    refine ⟨?_, fun _ => hvalue⟩
    simp [howner, hlt]
  · have hpos := Nat.two_pow_pos logDepth
    have howner : (ring (consumed % 2 ^ logDepth)).owner = !lapBit (2 ^ logDepth) consumed :=
      hring.free consumed heq.ge (by omega)
    -- Nothing is pending, and the cell still has the bit of the lap before.
    rw [howner, bne_self_eq_false]
    exact ⟨⟨nofun, fun hlt => absurd hlt (by omega)⟩, nofun⟩

/-! ## Polling -/

/-- The ring and the device's context, with the completions that the NIC has
written and those that the device has consumed. -/
structure Polling (α : Type) where
  ring : Nat → Cqe α
  ctx : CqCtx
  written : List α
  consumed : List α

inductive PollAction (α : Type)
  | write (value : α)
  | poll

/-- The NIC is never more than one lap ahead; the device takes the current CQE
when the owner test says so. -/
inductive PollStep (logDepth : Nat) : Polling α → PollAction α → Polling α → Prop
  | write {state : Polling α} (value : α)
      (hspan : state.written.length < state.consumed.length + 2 ^ logDepth) :
      PollStep logDepth state (.write value)
        { state with
          ring := Function.update state.ring (state.written.length % 2 ^ logDepth)
            ⟨lapBit (2 ^ logDepth) state.written.length, value⟩
          written := state.written ++ [value] }
  | poll {state : Polling α} (hready : state.ctx.ready state.ring = true) :
      PollStep logDepth state .poll
        { state with
          ctx := stepCq state.ctx
          consumed := state.consumed ++ [(state.ring state.ctx.cqe).value] }

def pollSystem (α : Type) (logDepth : Nat) : System (Polling α) (PollAction α) where
  start state := (∃ blank, state.ring = allocateCqMemory blank) ∧ state.ctx = initCq logDepth ∧
    state.written = [] ∧ state.consumed = []
  step := PollStep logDepth

/-- The consumed completions are the oldest written ones, in order; ring and
context are those of that many. -/
structure Polling.InStep (logDepth : Nat) (state : Polling α) : Prop where
  consumed_eq : state.consumed = state.written.take state.consumed.length
  ctx_at : state.ctx.At logDepth state.consumed.length
  published : Published state.ring logDepth state.written state.consumed.length

theorem Polling.InStep.le {state : Polling α} (hinv : state.InStep logDepth) :
    state.consumed.length ≤ state.written.length := by
  have hlength := congrArg List.length hinv.consumed_eq
  rw [List.length_take] at hlength
  omega

theorem PollStep.inStep {state next : Polling α} {action : PollAction α}
    (hdepth : logDepth ≤ 32) (hstep : PollStep logDepth state action next)
    (hinv : state.InStep logDepth) : next.InStep logDepth := by
  cases hstep with
  | write value hspan =>
      refine ⟨?_, hinv.ctx_at, hinv.published.write hspan value⟩
      change state.consumed = (state.written ++ [value]).take state.consumed.length
      rw [List.take_append_of_le_length hinv.le]
      exact hinv.consumed_eq
  | poll hready =>
      obtain ⟨hiff, hvalue⟩ := hinv.published.ready_iff hinv.ctx_at hinv.le
      have hlength : (state.consumed ++ [(state.ring state.ctx.cqe).value]).length =
          state.consumed.length + 1 := by simp
      refine ⟨?_, ?_, ?_⟩
      · rw [hlength, List.take_add_one, ← hinv.consumed_eq, hvalue hready]
        rfl
      · rw [hlength]
        exact hinv.ctx_at.step hdepth
      · rw [hlength]
        exact hinv.published.consume

/-- For every ring depth, in every reachable state: the owner test is true
exactly when an unconsumed completion exists, the current CQE is then the oldest
of them, and the consumed completions are the written ones from the first on,
each once and in order. -/
theorem polling_consumes_in_order {logDepth : Nat} (hdepth : logDepth ≤ 15)
    {state : Polling α} (hreach : (pollSystem α logDepth).Reachable state) :
    (state.ctx.ready state.ring = true ↔ state.consumed.length < state.written.length) ∧
      (state.ctx.ready state.ring = true →
        state.written[state.consumed.length]? = some (state.ring state.ctx.cqe).value) ∧
      state.consumed = state.written.take state.consumed.length := by
  have hinv : state.InStep logDepth := by
    apply hreach.invariant
    · intro state hstart
      obtain ⟨⟨blank, hring⟩, hctx, hwritten, hconsumed⟩ := hstart
      refine ⟨by simp [hwritten, hconsumed], ?_, ?_⟩
      · rw [hctx, hconsumed]
        exact initCq_at logDepth
      · rw [hring, hwritten, hconsumed]
        exact allocateCqMemory_published blank logDepth
    · intro state action next _ hinv hstep
      exact PollStep.inStep (hdepth.trans (by decide)) hstep hinv
  obtain ⟨hiff, hvalue⟩ := hinv.published.ready_iff hinv.ctx_at hinv.le
  exact ⟨hiff, hvalue, hinv.consumed_eq⟩

/-- In a ring of two entries, with three completions: the third takes the entry of
the first, and the owner test finds it after two polls. -/
theorem polling_over_lap :
    ∃ state : Polling Nat, (pollSystem Nat 1).Reachable state ∧
      state.written = [7, 8, 9] ∧ state.consumed = [7, 8] ∧
      state.ctx.ready state.ring = true ∧
      state.written[state.consumed.length]? = some (state.ring state.ctx.cqe).value := by
  have hstart : (pollSystem Nat 1).Reachable ⟨allocateCqMemory 0, initCq 1, [], []⟩ :=
    .start ⟨⟨0, rfl⟩, rfl, rfl, rfl⟩
  have hfull := (hstart.step (PollStep.write 7 (by decide))).step (PollStep.write 8 (by decide))
  -- One poll frees an entry, and the third completion takes it.
  have hlapped := (hfull.step (PollStep.poll (by decide))).step (PollStep.write 9 (by decide))
  have hreach := hlapped.step (PollStep.poll (by decide))
  obtain ⟨hiff, hvalue, -⟩ := polling_consumes_in_order (by decide) hreach
  have hready := hiff.mpr (by decide)
  exact ⟨_, hreach, rfl, by decide, hready, hvalue hready⟩

end BenchBF3.Dpa
