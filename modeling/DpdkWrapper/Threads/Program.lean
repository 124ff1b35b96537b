import Mathlib.Logic.Relation

/-!
# Programs as sequences of indivisible steps

A program over a shared state is either finished or about to make one
indivisible step, which reads the state, updates it, and chooses the rest of
the program from what it read.  Running every step back to back gives the
program's meaning as an uninterrupted call; letting another thread change the
state before each step gives its meaning under interference.  Both meanings
belong to the same program text.
-/

namespace DpdkWrapper.Threads

universe u v

/-- A program over a shared state `σ` that returns an `α`.  Both parts of a
step see the state as it was before the step. -/
inductive Program (σ : Type u) (α : Type v) where
  | done (value : α)
  | step (update : σ → σ) (next : σ → Program σ α)

namespace Program

variable {σ : Type} {α β : Type}

/-- Sequential composition. -/
def bind : Program σ α → (α → Program σ β) → Program σ β
  | done value, rest => rest value
  | step update next, rest => step update fun state => (next state).bind rest

instance : Monad (Program σ) where
  pure := done
  bind := bind

theorem bind_assoc {γ : Type} (program : Program σ α) (first : α → Program σ β)
    (second : β → Program σ γ) :
    (program >>= first) >>= second = program >>= fun value => first value >>= second := by
  induction program with
  | done value => rfl
  | step update next ih => exact congrArg (step update) (funext ih)

/-- One indivisible step that computes a value and a new state. -/
def atomically (action : σ → α × σ) : Program σ α :=
  step (fun state => (action state).2) fun state => done (action state).1

/-- One indivisible read. -/
def read (value : σ → α) : Program σ α :=
  step id fun state => done (value state)

/-- One indivisible update. -/
def modify (update : σ → σ) : Program σ Unit :=
  step update fun _ => done ()

/-- Run a program only if a condition holds. -/
def when (condition : Bool) (program : Program σ Unit) : Program σ Unit :=
  if condition then program else done ()

/-- Run a program for each entry of a list, in order. -/
def forEach (body : α → Program σ Unit) : List α → Program σ Unit
  | [] => done ()
  | entry :: rest => bind (body entry) fun _ => forEach body rest

/-! ## Uninterrupted execution -/

/-- Execute all steps without interruption. -/
def run : Program σ α → σ → α × σ
  | done value, state => (value, state)
  | step update next, state => (next state).run (update state)

/-- Execute a number of steps and leave the rest. -/
def advance : Nat → Program σ α → σ → Program σ α × σ
  | count + 1, step update next, state => advance count (next state) (update state)
  | _, program, state => (program, state)

@[simp]
theorem pure_eq_done (value : α) : (pure value : Program σ α) = done value :=
  rfl

@[simp]
theorem run_done (value : α) (state : σ) :
    (done value : Program σ α).run state = (value, state) :=
  rfl

@[simp]
theorem run_step (update : σ → σ) (next : σ → Program σ α) (state : σ) :
    (step update next).run state = (next state).run (update state) :=
  rfl

theorem run_bind (program : Program σ α) (rest : α → Program σ β) (state : σ) :
    (program.bind rest).run state =
      (rest (program.run state).1).run (program.run state).2 := by
  induction program generalizing state with
  | done value => rfl
  | step update next ih => exact ih state (update state)

@[simp]
theorem run_bind' (program : Program σ α) (rest : α → Program σ β) (state : σ) :
    (program >>= rest).run state =
      (rest (program.run state).1).run (program.run state).2 :=
  run_bind program rest state

@[simp]
theorem run_read (value : σ → α) (state : σ) :
    (read value).run state = (value state, state) :=
  rfl

@[simp]
theorem run_modify (update : σ → σ) (state : σ) :
    (modify update).run state = ((), update state) :=
  rfl

@[simp]
theorem run_atomically (action : σ → α × σ) (state : σ) :
    (atomically action).run state = action state :=
  rfl

@[simp]
theorem run_forEach_nil (body : α → Program σ Unit) (state : σ) :
    (forEach body []).run state = ((), state) :=
  rfl

@[simp]
theorem run_forEach_cons (body : α → Program σ Unit) (entry : α)
    (rest : List α) (state : σ) :
    (forEach body (entry :: rest)).run state =
      (forEach body rest).run ((body entry).run state).2 :=
  run_bind (body entry) (fun _ => forEach body rest) state

@[simp]
theorem run_when (condition : Bool) (program : Program σ Unit) (state : σ) :
    (when condition program).run state =
      if condition then program.run state else ((), state) := by
  cases condition <;> rfl

end Program

end DpdkWrapper.Threads
