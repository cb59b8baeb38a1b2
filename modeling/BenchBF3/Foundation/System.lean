import Mathlib.Logic.Relation

/-! # Transition systems and their reachable states

A system has start states and labelled steps. Safety is proved by invariants
over its reachable states. Cutting the steps down to those that meet a
condition gives the runs whose steps all meet it, so a result about a
restricted system is a result about every such run.
-/

namespace BenchBF3.Foundation

/-- A labelled transition system: where runs start and what one step does. -/
structure System (State Action : Type*) where
  start : State → Prop
  step : State → Action → State → Prop

namespace System

variable {State Action : Type*}

/-- States at the end of some finite run. -/
inductive Reachable (system : System State Action) : State → Prop
  | start {state : State} (hstart : system.start state) : Reachable system state
  | step {state next : State} {action : Action} (prior : Reachable system state)
      (hstep : system.step state action next) : Reachable system next

/-- Finite runs between two states, from any state whatever. -/
inductive Path (system : System State Action) : State → State → Prop
  | refl (state : State) : Path system state state
  | step {first state next : State} {action : Action} (prior : Path system first state)
      (hstep : system.step state action next) : Path system first next

/-- The runs of a system whose steps all meet a condition on the state they
start from and on their label. -/
def restrict (system : System State Action) (allowed : State → Action → Prop) :
    System State Action where
  start := system.start
  step state action next := allowed state action ∧ system.step state action next

variable {system : System State Action}

/-- An invariant of the start states that every step from a reachable state
keeps holds in every reachable state. -/
theorem Reachable.invariant {Inv : State → Prop}
    (hstart : ∀ state, system.start state → Inv state)
    (hstep : ∀ state action next, system.Reachable state → Inv state →
      system.step state action next → Inv next)
    {state : State} (hreach : system.Reachable state) : Inv state := by
  induction hreach with
  | start hinit => exact hstart _ hinit
  | step prior hnext ih => exact hstep _ _ _ prior ih hnext

theorem Reachable.path {first state : State} (hfirst : system.Reachable first)
    (hpath : system.Path first state) : system.Reachable state := by
  induction hpath with
  | refl => exact hfirst
  | step _ hnext ih => exact ih.step hnext

theorem Path.trans {first middle last : State} (hleft : system.Path first middle)
    (hright : system.Path middle last) : system.Path first last := by
  induction hright with
  | refl => exact hleft
  | step _ hnext ih => exact ih.step hnext

theorem Path.single {state next : State} {action : Action}
    (hstep : system.step state action next) : system.Path state next :=
  (Path.refl state).step hstep

theorem Reachable.step_restrict {allowed : State → Action → Prop} {state next : State}
    {action : Action} (hreach : (system.restrict allowed).Reachable state)
    (hstep : system.step state action next) (hallowed : allowed state action) :
    (system.restrict allowed).Reachable next :=
  hreach.step ⟨hallowed, hstep⟩

/-- A weaker condition allows the run as well. -/
theorem Reachable.mono_restrict {allowed weaker : State → Action → Prop} {state : State}
    (hweaker : ∀ state action, allowed state action → weaker state action)
    (hreach : (system.restrict allowed).Reachable state) :
    (system.restrict weaker).Reachable state := by
  induction hreach with
  | start hinit => exact .start hinit
  | step _ hnext ih => exact ih.step ⟨hweaker _ _ hnext.1, hnext.2⟩

/-- Dropping the condition keeps the run. -/
theorem Reachable.of_restrict {allowed : State → Action → Prop} {state : State}
    (hreach : (system.restrict allowed).Reachable state) : system.Reachable state := by
  induction hreach with
  | start hinit => exact .start hinit
  | step _ hnext ih => exact ih.step hnext.2

end System

end BenchBF3.Foundation
