import DpdkWrapper.Threads.Program

/-!
# Programs that cannot tell states apart

A program respects a relation between states if from related states it returns the same
value and leaves related states.  Two uninterrupted executions can then be compared
although their states differ in what the relation leaves open.
-/

namespace DpdkWrapper.Threads

namespace Program

variable {σ : Type} {α β : Type} {related : σ → σ → Prop}

/-- Related states have the same result, up to the relation. -/
def Respects (related : σ → σ → Prop) (program : Program σ α) : Prop :=
  ∀ first second, related first second →
    (program.run first).1 = (program.run second).1 ∧
      related (program.run first).2 (program.run second).2

namespace Respects

theorem done (value : α) : Respects related (Program.done value : Program σ α) :=
  fun _ _ same => ⟨rfl, same⟩

theorem bind {program : Program σ α} {rest : α → Program σ β}
    (respects : Respects related program) (further : ∀ value, Respects related (rest value)) :
    Respects related (program >>= rest) := by
  intro first second same
  obtain ⟨value, state⟩ := respects first second same
  rw [run_bind', run_bind', value]
  exact further _ _ _ state

/-- A read of more than is related, by a program that does not use the rest. -/
theorem read_bind {value : σ → α} {rest : α → Program σ β}
    (known : ∀ first second, related first second → rest (value first) = rest (value second))
    (further : ∀ value, Respects related (rest value)) :
    Respects related (read value >>= rest) := by
  intro first second same
  rw [run_bind', run_bind', run_read, run_read, known first second same]
  exact further _ _ _ same

theorem modify {update : σ → σ}
    (keeps : ∀ first second, related first second → related (update first) (update second)) :
    Respects related (Program.modify update) :=
  fun first second same => ⟨rfl, keeps first second same⟩

theorem ite {condition : Prop} [Decidable condition] {first second : Program σ α}
    (whenTrue : Respects related first) (whenFalse : Respects related second) :
    Respects related (if condition then first else second) := by
  split
  · exact whenTrue
  · exact whenFalse

theorem when {condition : Bool} {program : Program σ Unit} (respects : Respects related program) :
    Respects related (Program.when condition program) :=
  ite respects (done ())

end Respects

end Program

end DpdkWrapper.Threads
