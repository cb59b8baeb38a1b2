import Mathlib.Logic.Basic

/-! # Programs over atomic calls

A program either returns or makes one atomic call and continues with the
reply. Running it alone on a state gives its meaning as one atomic step;
keeping the unfinished program in a thread and executing one call at a time
gives every interleaving. A discipline attaches a ledger to a program: which
calls the ledger permits and how a reply changes it. `Safe` is the weakest
precondition of a program under a discipline, and it is adequate for both
readings.
-/

namespace BenchBF3.Foundation

universe u v w

/-- Programs that interact with a shared state through calls. -/
inductive Program (Call : Type u) (Reply : Call → Type v) (α : Type w) :
    Type (max u v w)
  | ret (value : α) : Program Call Reply α
  | call (operation : Call) (next : Reply operation → Program Call Reply α) :
      Program Call Reply α

namespace Program

variable {Call : Type u} {Reply : Call → Type v} {α β : Type w}

/-- Continue a program with its result. -/
def bind : Program Call Reply α → (α → Program Call Reply β) → Program Call Reply β
  | ret value, rest => rest value
  | call operation next, rest => call operation fun reply => (next reply).bind rest

instance : Monad (Program Call Reply) where
  pure := ret
  bind := bind

@[simp] theorem pure_eq_ret (value : α) :
    (pure value : Program Call Reply α) = ret value := rfl

@[simp] theorem ret_bind (value : α) (rest : α → Program Call Reply β) :
    (ret value >>= rest) = rest value := rfl

@[simp] theorem call_bind (operation : Call) (next : Reply operation → Program Call Reply α)
    (rest : α → Program Call Reply β) :
    (call operation next >>= rest) = call operation fun reply => next reply >>= rest := rfl

/-- Perform one call and return its reply. -/
def perform (operation : Call) : Program Call Reply (Reply operation) :=
  call operation ret

section Run

variable {State : Type*} (execute : (operation : Call) → State → Reply operation × State)

/-- Run a program alone: no other call comes between its own. -/
def run : Program Call Reply α → State → α × State
  | ret value, state => (value, state)
  | call operation next, state =>
      let outcome := execute operation state
      (next outcome.1).run outcome.2

@[simp] theorem run_ret (value : α) (state : State) :
    (ret value : Program Call Reply α).run execute state = (value, state) := rfl

@[simp] theorem run_call (operation : Call) (next : Reply operation → Program Call Reply α)
    (state : State) :
    (call operation next).run execute state =
      (next (execute operation state).1).run execute (execute operation state).2 := rfl

@[simp] theorem run_bind (program : Program Call Reply α)
    (rest : α → Program Call Reply β) (state : State) :
    (program >>= rest).run execute state =
      (rest (program.run execute state).1).run execute (program.run execute state).2 := by
  induction program generalizing state with
  | ret value => rfl
  | call operation next ih => exact ih _ _

end Run

/-- All calls of the program, on every branch, are of an allowed kind. -/
def Uses (allowed : Call → Prop) : Program Call Reply α → Prop
  | ret _ => True
  | call operation next => allowed operation ∧ ∀ reply, (next reply).Uses allowed

theorem Uses.bind {allowed : Call → Prop} {program : Program Call Reply α}
    {rest : α → Program Call Reply β} (hfirst : program.Uses allowed)
    (hrest : ∀ value, (rest value).Uses allowed) : (program >>= rest).Uses allowed := by
  induction program with
  | ret value => exact hrest value
  | call operation next ih => exact ⟨hfirst.1, fun reply => ih reply (hfirst.2 reply)⟩

/-- What every allowed call preserves, the whole program preserves. -/
theorem Uses.run_eq {State : Type*} {observe : State → β}
    {execute : (operation : Call) → State → Reply operation × State} {allowed : Call → Prop}
    (hcall : ∀ operation state, allowed operation →
      observe (execute operation state).2 = observe state)
    {program : Program Call Reply α} (huses : program.Uses allowed) (state : State) :
    observe (program.run execute state).2 = observe state := by
  induction program generalizing state with
  | ret value => rfl
  | call operation next ih =>
      exact (ih _ (huses.2 _) _).trans (hcall operation state huses.1)

/-- A ledger kept beside a program: the calls it permits, and the ledger
after a call has been answered. -/
structure Discipline (Call : Type u) (Reply : Call → Type v) (Ledger : Type*) where
  permits : Call → Ledger → Prop
  after : (operation : Call) → Reply operation → Ledger → Ledger

variable {Ledger : Type*} (discipline : Discipline Call Reply Ledger)

/-- The program respects the discipline for every possible sequence of
replies, and returns only with a result and a ledger that satisfy `post`. -/
def Safe (post : α → Ledger → Prop) : Program Call Reply α → Ledger → Prop
  | ret value, ledger => post value ledger
  | call operation next, ledger => discipline.permits operation ledger ∧
      ∀ reply, (next reply).Safe post (discipline.after operation reply ledger)

variable {discipline}

@[simp] theorem safe_ret {post : α → Ledger → Prop} {value : α} {ledger : Ledger} :
    (ret value : Program Call Reply α).Safe discipline post ledger ↔ post value ledger :=
  Iff.rfl

@[simp] theorem safe_call {post : α → Ledger → Prop} {operation : Call}
    {next : Reply operation → Program Call Reply α} {ledger : Ledger} :
    (call operation next).Safe discipline post ledger ↔
      discipline.permits operation ledger ∧
        ∀ reply, (next reply).Safe discipline post (discipline.after operation reply ledger) :=
  Iff.rfl

theorem Safe.mono {post post' : α → Ledger → Prop}
    (hpost : ∀ value ledger, post value ledger → post' value ledger)
    {program : Program Call Reply α} {ledger : Ledger}
    (hsafe : program.Safe discipline post ledger) :
    program.Safe discipline post' ledger := by
  induction program generalizing ledger with
  | ret value => exact hpost value ledger hsafe
  | call operation next ih => exact ⟨hsafe.1, fun reply => ih reply (hsafe.2 reply)⟩

/-- The rule of sequencing: the first program only has to reach ledgers from
which the second is safe. -/
theorem Safe.bind {post : β → Ledger → Prop} {program : Program Call Reply α}
    {rest : α → Program Call Reply β} {ledger : Ledger}
    (hsafe : program.Safe discipline
      (fun value ledger' => (rest value).Safe discipline post ledger') ledger) :
    (program >>= rest).Safe discipline post ledger := by
  induction program generalizing ledger with
  | ret value => exact hsafe
  | call operation next ih => exact ⟨hsafe.1, fun reply => ih reply (hsafe.2 reply)⟩

/-- Adequacy for programs that run alone: a relation between the shared state
and the ledger that every permitted call keeps still holds at the end. -/
theorem Safe.run {State : Type*}
    {execute : (operation : Call) → State → Reply operation × State}
    (Agrees : State → Ledger → Prop)
    (hcall : ∀ operation state ledger, discipline.permits operation ledger →
      Agrees state ledger →
      Agrees (execute operation state).2
        (discipline.after operation (execute operation state).1 ledger))
    {post : α → Ledger → Prop} {program : Program Call Reply α}
    {state : State} {ledger : Ledger}
    (hsafe : program.Safe discipline post ledger) (hagrees : Agrees state ledger) :
    ∃ ledger', post (program.run execute state).1 ledger' ∧
      Agrees (program.run execute state).2 ledger' := by
  induction program generalizing state ledger with
  | ret value => exact ⟨ledger, hsafe, hagrees⟩
  | call operation next ih =>
      exact ih _ (hsafe.2 _) (hcall operation state ledger hsafe.1 hagrees)

end Program

end BenchBF3.Foundation
