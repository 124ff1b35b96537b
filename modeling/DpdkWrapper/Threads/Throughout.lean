import DpdkWrapper.Threads.RelyGuarantee

/-!
# The states an uninterrupted program passes through

A bound that has to hold at every moment of a call, and not only at its end, is a
statement about all states between the program's steps.
-/

namespace DpdkWrapper.Threads

namespace Program

variable {σ : Type} {α β : Type} {holds : σ → Prop}

/-- A property of every state that the program passes through when it runs without
interruption, the first and the last one included. -/
def Throughout (holds : σ → Prop) : Program σ α → σ → Prop
  | done _, state => holds state
  | step update next, state => holds state ∧ (next state).Throughout holds (update state)

instance decidableThroughout (holds : σ → Prop) [DecidablePred holds] :
    (program : Program σ α) → (state : σ) → Decidable (program.Throughout holds state)
  | done _, state => inferInstanceAs (Decidable (holds state))
  | step update next, state =>
      have := decidableThroughout holds (next state) (update state)
      inferInstanceAs
        (Decidable (holds state ∧ (next state).Throughout holds (update state)))

namespace Throughout

theorem start {program : Program σ α} {state : σ} (throughout : program.Throughout holds state) :
    holds state := by
  cases program with
  | done value => exact throughout
  | step update next => exact throughout.1

theorem finish {program : Program σ α} {state : σ}
    (throughout : program.Throughout holds state) : holds (program.run state).2 := by
  induction program generalizing state with
  | done value => exact throughout
  | step update next ih => exact ih state throughout.2

theorem mono {weaker : σ → Prop} {program : Program σ α} {state : σ}
    (throughout : program.Throughout holds state)
    (implies : ∀ state, holds state → weaker state) : program.Throughout weaker state := by
  induction program generalizing state with
  | done value => exact implies state throughout
  | step update next ih => exact ⟨implies state throughout.1, ih state throughout.2⟩

theorem bind {program : Program σ α} {rest : α → Program σ β} {state : σ}
    (first : program.Throughout holds state)
    (second : (rest (program.run state).1).Throughout holds (program.run state).2) :
    (program >>= rest).Throughout holds state := by
  induction program generalizing state with
  | done value => exact second
  | step update next ih => exact ⟨first.1, ih state first.2 second⟩

/-- Loop rule: what each iteration makes of the invariant, and what the invariant says
of the states within an iteration. -/
theorem forEach {body : α → Program σ Unit} (invariant : List α → σ → Prop)
    (ends : ∀ state, invariant [] state → holds state)
    (keeps : ∀ entry rest state, invariant (entry :: rest) state →
      (body entry).Throughout holds state ∧ invariant rest ((body entry).run state).2)
    {entries : List α} {state : σ} (start : invariant entries state) :
    (Program.forEach body entries).Throughout holds state ∧
      invariant [] ((Program.forEach body entries).run state).2 := by
  induction entries generalizing state with
  | nil => exact ⟨ends state start, start⟩
  | cons entry rest ih =>
      obtain ⟨within, kept⟩ := keeps entry rest state start
      obtain ⟨throughout, final⟩ := ih kept
      rw [run_forEach_cons]
      exact ⟨within.bind throughout, final⟩

end Throughout

/-- Every step of the uninterrupted execution is in a relation. -/
def Traces (relation : σ → σ → Prop) : Program σ α → σ → Prop
  | done _, _ => True
  | step update next, state =>
      relation state (update state) ∧ (next state).Traces relation (update state)

instance decidableTraces (relation : σ → σ → Prop) [DecidableRel relation] :
    (program : Program σ α) → (state : σ) → Decidable (program.Traces relation state)
  | done _, _ => inferInstanceAs (Decidable True)
  | step update next, state =>
      have := decidableTraces relation (next state) (update state)
      inferInstanceAs (Decidable
        (relation state (update state) ∧ (next state).Traces relation (update state)))

theorem traces_of_forall {relation : σ → σ → Prop} (every : ∀ first second, relation first second)
    (program : Program σ α) (state : σ) : program.Traces relation state := by
  induction program generalizing state with
  | done value => trivial
  | step update next ih => exact ⟨every _ _, ih state _⟩

/-- What holds throughout holds after every step. -/
theorem Throughout.traces {program : Program σ α} {state : σ}
    (throughout : program.Throughout holds state) :
    program.Traces (fun _ later => holds later) state := by
  induction program generalizing state with
  | done value => trivial
  | step update next ih => exact ⟨throughout.2.start, ih state throughout.2⟩

/-- Every one of the first steps of the uninterrupted execution is in a relation. -/
def TracesFor (relation : σ → σ → Prop) : Nat → Program σ α → σ → Prop
  | count + 1, step update next, state =>
      relation state (update state) ∧ TracesFor relation count (next state) (update state)
  | _, _, _ => True

instance decidableTracesFor (relation : σ → σ → Prop) [DecidableRel relation] :
    (count : Nat) → (program : Program σ α) → (state : σ) →
      Decidable (program.TracesFor relation count state)
  | 0, _, _ => inferInstanceAs (Decidable True)
  | _ + 1, done _, _ => inferInstanceAs (Decidable True)
  | count + 1, step update next, state =>
      have := decidableTracesFor relation count (next state) (update state)
      inferInstanceAs (Decidable
        (relation state (update state) ∧
          (next state).TracesFor relation count (update state)))

theorem Traces.tracesFor {relation : σ → σ → Prop} {program : Program σ α} {state : σ}
    (traces : program.Traces relation state) (count : Nat) :
    program.TracesFor relation count state := by
  induction program generalizing state count with
  | done value => cases count <;> trivial
  | step update next ih =>
      cases count with
      | zero => trivial
      | succ count => exact ⟨traces.1, ih state traces.2 count⟩

/-- If all steps are in a preorder, every state is between the first and the last. -/
theorem Always.throughout {relation : σ → σ → Prop} {program : Program σ α}
    (always : program.Always relation) (refl : ∀ state, relation state state)
    (trans : ∀ first second third, relation first second → relation second third →
      relation first third) (state : σ) :
    program.Throughout
      (fun later => relation state later ∧ relation later (program.run state).2) state := by
  induction program generalizing state with
  | done value => exact ⟨refl state, refl state⟩
  | step update next ih =>
      obtain ⟨first, rest⟩ := always state
      refine ⟨⟨refl state, always.run refl trans state⟩, ?_⟩
      refine (ih state rest (update state)).mono ?_
      rintro later ⟨before, after⟩
      exact ⟨trans _ _ _ first before, after⟩

end Program

end DpdkWrapper.Threads
