import DpdkWrapper.Threads.Program

/-!
# Rely/guarantee reasoning about programs

`Program.Meets` says that a program establishes a postcondition however other
threads interfere within a stated relation, and that each of the program's own
steps stays within another.  It is defined by recursion on the program, so the
proof rules below are theorems and no separate derivation system is needed.

A protocol also carries an assumption about the program's own steps.  It
expresses results about those runs only whose steps all satisfy a condition:
after a step that breaks the condition nothing is claimed.
-/

namespace DpdkWrapper.Threads

/-- What a thread may rely on, what is assumed of its own steps, and what it
guarantees in return. -/
structure Protocol (σ : Type) where
  rely : σ → σ → Prop
  assume : σ → σ → Prop
  guarantee : σ → σ → Prop
  rely_refl : ∀ state, rely state state
  rely_trans : ∀ first second third,
    rely first second → rely second third → rely first third
  guarantee_refl : ∀ state, guarantee state state

/-- No other thread, and no condition on the program's own steps. -/
def Protocol.alone (σ : Type) : Protocol σ where
  rely first second := second = first
  assume _ _ := True
  guarantee _ _ := True
  rely_refl _ := rfl
  rely_trans _ _ _ left right := right.trans left
  guarantee_refl _ := trivial

namespace Program

variable {σ : Type} {α β : Type} {protocol : Protocol σ}

/-- Under every interference the protocol allows, each step of the program
keeps the guarantee and the result satisfies the postcondition. -/
def Meets (protocol : Protocol σ) (post : α → σ → Prop) :
    Program σ α → σ → Prop
  | done value, state => ∀ later, protocol.rely state later → post value later
  | step update next, state => ∀ later, protocol.rely state later →
      protocol.assume later (update later) →
        protocol.guarantee later (update later) ∧
          (next later).Meets protocol post (update later)

/-- What is known of a program stays known under interference. -/
theorem Meets.stable {post : α → σ → Prop} {program : Program σ α}
    {state later : σ} (meets : program.Meets protocol post state)
    (interference : protocol.rely state later) :
    program.Meets protocol post later := by
  cases program with
  | done value =>
      intro final moves
      exact meets final (protocol.rely_trans _ _ _ interference moves)
  | step update next =>
      intro final moves
      exact meets final (protocol.rely_trans _ _ _ interference moves)

/-- The program's own next step keeps the guarantee and leaves a program that
still meets its postcondition. -/
theorem Meets.step {post : α → σ → Prop} {update : σ → σ}
    {next : σ → Program σ α} {state : σ}
    (meets : (Program.step update next).Meets protocol post state)
    (assumed : protocol.assume state (update state)) :
    protocol.guarantee state (update state) ∧
      (next state).Meets protocol post (update state) :=
  meets state (protocol.rely_refl state) assumed

/-- A finished program satisfies its postcondition. -/
theorem Meets.done {post : α → σ → Prop} {value : α} {state : σ}
    (meets : (Program.done value).Meets protocol post state) : post value state :=
  meets state (protocol.rely_refl state)

theorem meets_done {post : α → σ → Prop} {value : α} {state : σ}
    (established : ∀ later, protocol.rely state later → post value later) :
    (Program.done value).Meets protocol post state :=
  established

theorem Meets.bind {post : β → σ → Prop} {program : Program σ α}
    {rest : α → Program σ β} {state : σ}
    (meets : program.Meets protocol
      (fun value later => (rest value).Meets protocol post later) state) :
    (program.bind rest).Meets protocol post state := by
  induction program generalizing state with
  | done value => exact Meets.done meets
  | step update next ih =>
      intro later moves assumed
      obtain ⟨kept, remaining⟩ := meets later moves assumed
      exact ⟨kept, ih later remaining⟩

/-- The bind rule in the form `do` blocks produce. -/
theorem meets_bind {post : β → σ → Prop} {program : Program σ α}
    {rest : α → Program σ β} {state : σ}
    (meets : program.Meets protocol
      (fun value later => (rest value).Meets protocol post later) state) :
    (program >>= rest).Meets protocol post state :=
  Meets.bind meets

theorem Meets.mono {post weaker : α → σ → Prop} {program : Program σ α}
    {state : σ} (meets : program.Meets protocol post state)
    (implies : ∀ value later, post value later → weaker value later) :
    program.Meets protocol weaker state := by
  induction program generalizing state with
  | done value =>
      intro later moves
      exact implies value later (meets later moves)
  | step update next ih =>
      intro later moves assumed
      obtain ⟨kept, remaining⟩ := meets later moves assumed
      exact ⟨kept, ih later remaining⟩

/-- A first program's postcondition is the precondition of the second. -/
theorem Meets.andThen {middle : α → σ → Prop} {post : β → σ → Prop}
    {program : Program σ α} {rest : α → Program σ β} {state : σ}
    (first : program.Meets protocol middle state)
    (second : ∀ value later, middle value later →
      (rest value).Meets protocol post later) :
    (program >>= rest).Meets protocol post state :=
  meets_bind (first.mono second)

/-- A read followed by the rest of the program. -/
theorem meets_read_bind {post : β → σ → Prop} {value : σ → α}
    {rest : α → Program σ β} {state : σ}
    (continues : ∀ later, protocol.rely state later →
      (rest (value later)).Meets protocol post later) :
    (read value >>= rest).Meets protocol post state := by
  intro later moves _
  exact ⟨protocol.guarantee_refl later, continues later moves⟩

/-- The same, where what is assumed of the program's steps says something about the state
that is read. -/
theorem meets_read_bind_assuming {post : β → σ → Prop} {value : σ → α}
    {rest : α → Program σ β} {state : σ}
    (continues : ∀ later, protocol.rely state later → protocol.assume later later →
      (rest (value later)).Meets protocol post later) :
    (read value >>= rest).Meets protocol post state := by
  intro later moves assumed
  exact ⟨protocol.guarantee_refl later, continues later moves assumed⟩

/-- An update followed by the rest of the program. -/
theorem meets_modify_bind {post : β → σ → Prop} {update : σ → σ}
    {rest : Unit → Program σ β} {state : σ}
    (continues : ∀ later, protocol.rely state later →
      protocol.assume later (update later) →
        protocol.guarantee later (update later) ∧
          (rest ()).Meets protocol post (update later)) :
    (modify update >>= rest).Meets protocol post state :=
  continues

theorem meets_modify {post : Unit → σ → Prop} {update : σ → σ} {state : σ}
    (continues : ∀ later, protocol.rely state later →
      protocol.assume later (update later) →
        protocol.guarantee later (update later) ∧
          ∀ final, protocol.rely (update later) final → post () final) :
    (modify update).Meets protocol post state :=
  continues

/-- An update that takes one assertion to another, both of which outlast interference. -/
theorem meets_modify_of {before after : σ → Prop} {update : σ → σ} {state : σ}
    (stable : ∀ first second, protocol.rely first second → before first → before second)
    (stable' : ∀ first second, protocol.rely first second → after first → after second)
    (takes : ∀ first, before first → protocol.guarantee first (update first) ∧ after (update first))
    (start : before state) : (modify update).Meets protocol (fun _ => after) state := by
  refine meets_modify fun later moves _ => ?_
  obtain ⟨kept, reached⟩ := takes later (stable _ _ moves start)
  exact ⟨kept, fun final further => stable' _ _ further reached⟩

/-- A combined read and update followed by the rest of the program. -/
theorem meets_atomically_bind {post : β → σ → Prop} {action : σ → α × σ}
    {rest : α → Program σ β} {state : σ}
    (continues : ∀ later, protocol.rely state later →
      protocol.assume later (action later).2 →
        protocol.guarantee later (action later).2 ∧
          (rest (action later).1).Meets protocol post (action later).2) :
    (atomically action >>= rest).Meets protocol post state :=
  continues

/-- Loop rule: an invariant that every iteration keeps holds at the end. -/
theorem meets_forEach {invariant : List α → σ → Prop} {body : α → Program σ Unit}
    {entries : List α} {state : σ} (start : invariant entries state)
    (stable : ∀ rest first second, protocol.rely first second →
      invariant rest first → invariant rest second)
    (keeps : ∀ entry rest later, invariant (entry :: rest) later →
      (body entry).Meets protocol (fun _ final => invariant rest final) later) :
    (forEach body entries).Meets protocol (fun _ final => invariant [] final)
      state := by
  induction entries generalizing state with
  | nil =>
      intro later moves
      exact stable [] _ _ moves start
  | cons entry rest ih =>
      refine Meets.bind ((keeps entry rest state start).mono ?_)
      intro _ later held
      exact ih held

/-- The same with an invariant that does not speak of the entries. -/
theorem meets_forEach_of {holds : σ → Prop} {body : α → Program σ Unit} {entries : List α}
    {state : σ} (start : holds state)
    (stable : ∀ first second, protocol.rely first second → holds first → holds second)
    (keeps : ∀ entry later, holds later → (body entry).Meets protocol (fun _ => holds) later) :
    (forEach body entries).Meets protocol (fun _ => holds) state :=
  @meets_forEach σ α protocol (fun _ => holds) body entries state start (fun _ => stable)
    fun entry _ => keeps entry

/-- Absence of interference is one of the interferences: what a program meets
also holds of its uninterrupted execution. -/
theorem Meets.run {post : α → σ → Prop} {program : Program σ α} {state : σ}
    (assumed : ∀ first second, protocol.assume first second)
    (meets : program.Meets protocol post state) :
    post (program.run state).1 (program.run state).2 := by
  induction program generalizing state with
  | done value => exact meets.done
  | step update next ih => exact ih state (meets.step (assumed _ _)).2

/-! ## Steps without a precondition -/

/-- Every step the program can make, from whatever state, is in a relation. -/
def Always (relation : σ → σ → Prop) : Program σ α → Prop
  | done _ => True
  | step update next => ∀ state, relation state (update state) ∧ (next state).Always relation

namespace Always

variable {relation : σ → σ → Prop}

theorem bind {program : Program σ α} {rest : α → Program σ β}
    (first : program.Always relation) (second : ∀ value, (rest value).Always relation) :
    (program >>= rest).Always relation := by
  induction program with
  | done value => exact second value
  | step update next ih =>
      intro state
      exact ⟨(first state).1, ih state (first state).2⟩

theorem read (refl : ∀ state, relation state state) (value : σ → α) :
    (Program.read value).Always relation :=
  fun state => ⟨refl state, trivial⟩

theorem modify {update : σ → σ} (related : ∀ state, relation state (update state)) :
    (Program.modify update).Always relation :=
  fun state => ⟨related state, trivial⟩

theorem ite {condition : Prop} [Decidable condition] {first second : Program σ α}
    (whenTrue : first.Always relation) (whenFalse : second.Always relation) :
    (if condition then first else second).Always relation := by
  split
  · exact whenTrue
  · exact whenFalse

theorem forEach {body : α → Program σ Unit} (always : ∀ entry, (body entry).Always relation)
    (entries : List α) : (Program.forEach body entries).Always relation := by
  induction entries with
  | nil => trivial
  | cons entry rest ih => exact (always entry).bind fun _ => ih

/-- An uninterrupted execution is one big step in the relation. -/
theorem run {program : Program σ α} (always : program.Always relation)
    (refl : ∀ state, relation state state)
    (trans : ∀ first second third, relation first second → relation second third →
      relation first third) (state : σ) : relation state (program.run state).2 := by
  induction program generalizing state with
  | done value => exact refl state
  | step update next ih =>
      exact trans _ _ _ (always state).1 (ih state (always state).2 (update state))

/-- Under interference, too, each step is in the relation; what interference and the
relation keep holds at the end. -/
theorem meets {program : Program σ α} (always : program.Always relation) {holds : σ → Prop}
    (stable : ∀ first second, protocol.rely first second → holds first → holds second)
    (kept : ∀ first second, relation first second → holds first →
      protocol.guarantee first second ∧ holds second) {state : σ} (start : holds state) :
    program.Meets protocol (fun _ => holds) state := by
  induction program generalizing state with
  | done value => exact meets_done fun later moves => stable _ _ moves start
  | step update next ih =>
      intro later moves _
      obtain ⟨within, rest⟩ := always later
      obtain ⟨guaranteed, after⟩ := kept _ _ within (stable _ _ moves start)
      exact ⟨guaranteed, ih later rest after⟩

end Always

end Program

end DpdkWrapper.Threads
