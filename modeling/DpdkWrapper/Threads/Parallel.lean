import DpdkWrapper.Threads.Throughout

/-!
# Two threads

Each of two threads runs one program after the other, and a scheduler interleaves their
steps.  If the programs of each thread keep a protocol whose guarantee is what the other
thread relies on, then every step of every interleaving keeps the guarantee of the thread
that makes it.  A device may run beside the threads: it changes the state at any moment, also
in the middle of a program, and the rule asks that both threads can rely on what it does.
-/

namespace DpdkWrapper.Threads

/-- What a thread remembers while it runs a program and between programs, and which
program it may start where it stands. -/
structure Thread (σ : Type) where
  Place : Type
  starts : σ → Place → Program σ Unit → Place → Prop

/-- A thread with what is left of its program. -/
structure Busy {σ : Type} (thread : Thread σ) where
  place : thread.Place
  program : Program σ Unit

section

variable {σ : Type}

/-- One step of the current program, or the start of the next one. -/
inductive Thread.Advances (thread : Thread σ) (state : σ) : Busy thread → σ → Busy thread → Prop
  | starts {place place' : thread.Place} {program : Program σ Unit}
      (allowed : thread.starts state place program place') :
      Advances thread state ⟨place, .done ()⟩ state ⟨place', program⟩
  | steps (place : thread.Place) (update : σ → σ) (next : σ → Program σ Unit) :
      Advances thread state ⟨place, .step update next⟩ (update state) ⟨place, next state⟩

/-- The program meets the protocol of its place and leaves the thread at rest. -/
def Busy.Sound {thread : Thread σ} (protocol : thread.Place → Protocol σ)
    (rest : thread.Place → σ → Prop) (busy : Busy thread) (state : σ) : Prop :=
  busy.program.Meets (protocol busy.place) (fun _ => rest busy.place) state

/-- Whatever a thread at rest may start meets the protocol, if every step is allowed. -/
structure Thread.Keeps (thread : Thread σ) (allowed : σ → σ → Prop)
    (protocol : thread.Place → Protocol σ) (rest : thread.Place → σ → Prop) : Prop where
  assumed : ∀ place first second, allowed first second → (protocol place).assume first second
  starts : ∀ place state program place', rest place state →
    thread.starts state place program place' →
      program.Meets (protocol place') (fun _ => rest place') state

/-- A thread that is sound makes a step within its guarantee and stays sound. -/
theorem Thread.Keeps.advances {thread : Thread σ} {allowed : σ → σ → Prop}
    {protocol : thread.Place → Protocol σ} {rest : thread.Place → σ → Prop}
    (keeps : thread.Keeps allowed protocol rest) {busy busy' : Busy thread} {state state' : σ}
    (advances : thread.Advances state busy state' busy') (sound : busy.Sound protocol rest state)
    (permitted : allowed state state') :
    (protocol busy.place).guarantee state state' ∧ busy'.Sound protocol rest state' := by
  cases advances with
  | starts start =>
      exact ⟨(protocol _).guarantee_refl state, keeps.starts _ _ _ _ sound.done start⟩
  | steps place update next => exact sound.step (keeps.assumed _ _ _ permitted)

/-- Two threads on a shared state. -/
structure Config (first second : Thread σ) where
  state : σ
  first : Busy first
  second : Busy second

variable {first second : Thread σ}

/-- Either thread advances. -/
inductive Moves (allowed : σ → σ → Prop) (config : Config first second) :
    Config first second → Prop
  | first {state : σ} {busy : Busy first}
      (advances : first.Advances config.state config.first state busy)
      (permitted : allowed config.state state) : Moves allowed config ⟨state, busy, config.second⟩
  | second {state : σ} {busy : Busy second}
      (advances : second.Advances config.state config.second state busy)
      (permitted : allowed config.state state) : Moves allowed config ⟨state, config.first, busy⟩

/-- Any number of moves. -/
abbrev Interleaves (allowed : σ → σ → Prop) :
    Config first second → Config first second → Prop :=
  Relation.ReflTransGen (Moves allowed)

section Permitting

variable {allowed allowed' : σ → σ → Prop} {start config config' : Config first second}

/-- A move that satisfies another condition as well. -/
theorem Moves.permitting (moves : Moves allowed config config')
    (permits : allowed config.state config'.state → allowed' config.state config'.state) :
    Moves allowed' config config' := by
  cases moves with
  | first advances holds => exact .first advances (permits holds)
  | second advances holds => exact .second advances (permits holds)

theorem Interleaves.permitting (run : Interleaves allowed start config)
    (permits : ∀ middle next, Interleaves allowed start middle → Moves allowed middle next →
      allowed middle.state next.state → allowed' middle.state next.state) :
    Interleaves allowed' start config := by
  induction run with
  | refl => exact .refl
  | tail run step ih => exact ih.tail (step.permitting (permits _ _ run step))

end Permitting

/-! ## The rule for two threads -/

/-- Each thread keeps its protocols and can rely on what the other one guarantees. -/
structure Parallel (allowed : σ → σ → Prop) (protocol : first.Place → Protocol σ)
    (rest : first.Place → σ → Prop) (protocol' : second.Place → Protocol σ)
    (rest' : second.Place → σ → Prop) : Prop where
  first : first.Keeps allowed protocol rest
  second : second.Keeps allowed protocol' rest'
  firstRelies : ∀ place place' state state', allowed state state' →
    (protocol' place').guarantee state state' → (protocol place).rely state state'
  secondRelies : ∀ place place' state state', allowed state state' →
    (protocol place).guarantee state state' → (protocol' place').rely state state'

/-- Both threads are sound. -/
structure Config.Sound (protocol : first.Place → Protocol σ) (rest : first.Place → σ → Prop)
    (protocol' : second.Place → Protocol σ) (rest' : second.Place → σ → Prop)
    (config : Config first second) : Prop where
  first : config.first.Sound protocol rest config.state
  second : config.second.Sound protocol' rest' config.state

namespace Parallel

variable {allowed : σ → σ → Prop} {protocol : first.Place → Protocol σ}
  {rest : first.Place → σ → Prop} {protocol' : second.Place → Protocol σ}
  {rest' : second.Place → σ → Prop} {start config config' : Config first second}

variable (parallel : Parallel allowed protocol rest protocol' rest')
include parallel

theorem moves (sound : config.Sound protocol rest protocol' rest')
    (moves : Moves allowed config config') : config'.Sound protocol rest protocol' rest' := by
  cases moves with
  | first advances permitted =>
      obtain ⟨kept, still⟩ := parallel.first.advances advances sound.first permitted
      exact ⟨still, sound.second.stable (parallel.secondRelies _ _ _ _ permitted kept)⟩
  | second advances permitted =>
      obtain ⟨kept, still⟩ := parallel.second.advances advances sound.second permitted
      exact ⟨sound.first.stable (parallel.firstRelies _ _ _ _ permitted kept), still⟩

/-- Every interleaving leaves both threads sound. -/
theorem sound (begins : start.Sound protocol rest protocol' rest')
    (run : Interleaves allowed start config) : config.Sound protocol rest protocol' rest' := by
  induction run with
  | refl => exact begins
  | tail _ step ih => exact parallel.moves ih step

/-- A move keeps what the thread that makes it guarantees. -/
theorem guaranteed (sound : config.Sound protocol rest protocol' rest')
    (moves : Moves allowed config config') :
    allowed config.state config'.state ∧
      ((∃ place, (protocol place).guarantee config.state config'.state) ∨
        ∃ place, (protocol' place).guarantee config.state config'.state) := by
  cases moves with
  | first advances permitted =>
      exact ⟨permitted, .inl ⟨_, (parallel.first.advances advances sound.first permitted).1⟩⟩
  | second advances permitted =>
      exact ⟨permitted, .inr ⟨_, (parallel.second.advances advances sound.second permitted).1⟩⟩

/-- What holds at the start and is kept by what the threads guarantee holds throughout. -/
theorem invariant (holds : σ → Prop) (begins : start.Sound protocol rest protocol' rest')
    (base : holds start.state)
    (firstKeeps : ∀ place state state', holds state → allowed state state' →
      (protocol place).guarantee state state' → holds state')
    (secondKeeps : ∀ place state state', holds state → allowed state state' →
      (protocol' place).guarantee state state' → holds state')
    (run : Interleaves allowed start config) : holds config.state := by
  induction run with
  | refl => exact base
  | tail run step ih =>
      obtain ⟨permitted, ⟨place, kept⟩ | ⟨place, kept⟩⟩ :=
        parallel.guaranteed (parallel.sound begins run) step
      · exact firstKeeps place _ _ ih permitted kept
      · exact secondKeeps place _ _ ih permitted kept

end Parallel

/-! ## A device beside the threads -/

/-- Either thread advances, or a device that runs beside them changes the shared state.  The
device waits for neither thread. -/
inductive MovesBeside (device allowed : σ → σ → Prop) (config : Config first second) :
    Config first second → Prop
  | thread {config' : Config first second} (moves : Moves allowed config config') :
      MovesBeside device allowed config config'
  | device {state : σ} (moves : device config.state state) :
      MovesBeside device allowed config ⟨state, config.first, config.second⟩

/-- Any number of moves of the threads and the device. -/
abbrev InterleavesBeside (device allowed : σ → σ → Prop) :
    Config first second → Config first second → Prop :=
  Relation.ReflTransGen (MovesBeside device allowed)

theorem Interleaves.beside {allowed : σ → σ → Prop} {start config : Config first second}
    (run : Interleaves allowed start config) (device : σ → σ → Prop) :
    InterleavesBeside device allowed start config :=
  Relation.ReflTransGen.mono (fun _ _ => MovesBeside.thread) _ _ run

/-- Two threads that keep to each other's terms, and a device whose moves both can rely on. -/
structure ParallelBeside (device allowed : σ → σ → Prop) (protocol : first.Place → Protocol σ)
    (rest : first.Place → σ → Prop) (protocol' : second.Place → Protocol σ)
    (rest' : second.Place → σ → Prop) : Prop where
  threads : Parallel allowed protocol rest protocol' rest'
  firstRelies : ∀ place state state', device state state' → (protocol place).rely state state'
  secondRelies : ∀ place state state', device state state' → (protocol' place).rely state state'

namespace ParallelBeside

variable {device allowed : σ → σ → Prop} {protocol : first.Place → Protocol σ}
  {rest : first.Place → σ → Prop} {protocol' : second.Place → Protocol σ}
  {rest' : second.Place → σ → Prop} {start config config' : Config first second}

variable (parallel : ParallelBeside device allowed protocol rest protocol' rest')
include parallel

theorem moves (sound : config.Sound protocol rest protocol' rest')
    (moves : MovesBeside device allowed config config') :
    config'.Sound protocol rest protocol' rest' := by
  cases moves with
  | thread moves => exact parallel.threads.moves sound moves
  | device moves =>
      exact ⟨sound.first.stable (parallel.firstRelies _ _ _ moves),
        sound.second.stable (parallel.secondRelies _ _ _ moves)⟩

/-- Both threads stay sound, whenever the device moves. -/
theorem sound (begins : start.Sound protocol rest protocol' rest')
    (run : InterleavesBeside device allowed start config) :
    config.Sound protocol rest protocol' rest' := by
  induction run with
  | refl => exact begins
  | tail _ step ih => exact parallel.moves ih step

/-- What holds at the start and is kept by what the threads guarantee and by the device holds
throughout. -/
theorem invariant (holds : σ → Prop) (begins : start.Sound protocol rest protocol' rest')
    (base : holds start.state)
    (firstKeeps : ∀ place state state', holds state → allowed state state' →
      (protocol place).guarantee state state' → holds state')
    (secondKeeps : ∀ place state state', holds state → allowed state state' →
      (protocol' place).guarantee state state' → holds state')
    (deviceKeeps : ∀ state state', holds state → device state state' → holds state')
    (run : InterleavesBeside device allowed start config) : holds config.state := by
  induction run with
  | refl => exact base
  | tail run step ih =>
      cases step with
      | thread moves =>
          obtain ⟨permitted, ⟨place, kept⟩ | ⟨place, kept⟩⟩ :=
            parallel.threads.guaranteed (parallel.sound begins run) moves
          · exact firstKeeps place _ _ ih permitted kept
          · exact secondKeeps place _ _ ih permitted kept
      | device moves => exact deviceKeeps _ _ ih moves

end ParallelBeside

/-! ## One program of the first thread -/

/-- A move in which the first thread goes on with its program, or the second one advances.
The first thread does not start another program. -/
inductive MovesWithin (allowed : σ → σ → Prop) : Config first second → Config first second → Prop
  | first (state : σ) (place : first.Place) (update : σ → σ) (next : σ → Program σ Unit)
      (other : Busy second) (permitted : allowed state (update state)) :
      MovesWithin allowed ⟨state, ⟨place, .step update next⟩, other⟩
        ⟨update state, ⟨place, next state⟩, other⟩
  | second {config : Config first second} {state : σ} {busy : Busy second}
      (advances : second.Advances config.state config.second state busy)
      (permitted : allowed config.state state) :
      MovesWithin allowed config ⟨state, config.first, busy⟩

theorem MovesWithin.moves {allowed : σ → σ → Prop} {config config' : Config first second}
    (move : MovesWithin allowed config config') : Moves allowed config config' := by
  cases move with
  | first state place update next other permitted =>
      exact .first (.steps place update next) permitted
  | second advances permitted => exact .second advances permitted

/-- Until it is finished, a program of the first thread meets what it met at its start, if the
second thread's steps from the configurations of the interleaving are what it relies on. -/
theorem Interleaves.within {allowed : σ → σ → Prop} {start config config' : Config first second}
    {protocol : Protocol σ} {post : Unit → σ → Prop} (run : Interleaves allowed start config)
    (assumed : ∀ first second, allowed first second → protocol.assume first second)
    (relies : ∀ (middle : Config first second) state busy, Interleaves allowed start middle →
      second.Advances middle.state middle.second state busy → allowed middle.state state →
        protocol.rely middle.state state)
    (meets : config.first.program.Meets protocol post config.state)
    (further : Relation.ReflTransGen (MovesWithin allowed) config config') :
    Interleaves allowed start config' ∧
      config'.first.program.Meets protocol post config'.state := by
  induction further with
  | refl => exact ⟨run, meets⟩
  | tail _ step ih =>
      obtain ⟨run, meets⟩ := ih
      refine ⟨run.tail step.moves, ?_⟩
      cases step with
      | first state place update next other permitted =>
          exact (meets.step (assumed _ _ permitted)).2
      | second advances permitted => exact meets.stable (relies _ _ _ run advances permitted)

/-! ## Uninterrupted programs -/

section Uninterrupted

variable {allowed : σ → σ → Prop} {state : σ} {program : Program σ Unit}

/-- The first thread finishes its program, if every step is allowed. -/
theorem MovesWithin.finishFirst (place : first.Place) (other : Busy second)
    (traces : program.Traces allowed state) :
    Relation.ReflTransGen (MovesWithin allowed) ⟨state, ⟨place, program⟩, other⟩
      ⟨(program.run state).2, ⟨place, .done ()⟩, other⟩ := by
  induction program generalizing state with
  | done value => exact .refl
  | step update next ih =>
      exact .head (.first state place update next other traces.1) (ih state traces.2)

theorem Interleaves.finishFirstTracing (place : first.Place) (other : Busy second)
    (traces : program.Traces allowed state) :
    Interleaves allowed ⟨state, ⟨place, program⟩, other⟩
      ⟨(program.run state).2, ⟨place, .done ()⟩, other⟩ :=
  Relation.ReflTransGen.mono (fun _ _ => MovesWithin.moves) _ _
    (MovesWithin.finishFirst place other traces)

/-- The second thread finishes its program, if every step is allowed. -/
theorem Interleaves.finishSecondTracing (place : second.Place) (other : Busy first)
    (traces : program.Traces allowed state) :
    Interleaves allowed ⟨state, other, ⟨place, program⟩⟩
      ⟨(program.run state).2, other, ⟨place, .done ()⟩⟩ := by
  induction program generalizing state with
  | done value => exact .refl
  | step update next ih =>
      exact .head (.second (.steps place update next) traces.1) (ih state traces.2)

/-- The second thread makes some steps of its program, if each of them is allowed. -/
theorem Interleaves.advanceSecondTracing (count : Nat) (place : second.Place) (other : Busy first)
    (traces : program.TracesFor allowed count state) :
    Interleaves allowed ⟨state, other, ⟨place, program⟩⟩
      ⟨(program.advance count state).2, other, ⟨place, (program.advance count state).1⟩⟩ := by
  induction count generalizing state program with
  | zero => exact .refl
  | succ count ih =>
      cases program with
      | done value => exact .refl
      | step update next =>
          exact .head (.second (.steps place update next) traces.1) (ih traces.2)

/-- Among all interleavings are those in which a thread is not interrupted. -/
theorem Interleaves.finishFirst (state : σ) (place : first.Place) (program : Program σ Unit)
    (other : Busy second) :
    Interleaves (fun _ _ => True) ⟨state, ⟨place, program⟩, other⟩
      ⟨(program.run state).2, ⟨place, .done ()⟩, other⟩ :=
  finishFirstTracing place other (program.traces_of_forall (fun _ _ => trivial) state)

theorem Interleaves.advanceSecond (count : Nat) (state : σ) (place : second.Place)
    (program : Program σ Unit) (other : Busy first) :
    Interleaves (fun _ _ => True) ⟨state, other, ⟨place, program⟩⟩
      ⟨(program.advance count state).2, other, ⟨place, (program.advance count state).1⟩⟩ :=
  advanceSecondTracing count place other
    ((program.traces_of_forall (fun _ _ => trivial) state).tracesFor count)

/-- The same with the first part of a program of the second thread. -/
theorem Interleaves.runSecond {α : Type} (state : σ) (place : second.Place)
    (program : Program σ α) (rest : α → Program σ Unit) (other : Busy first) :
    Interleaves (fun _ _ => True) ⟨state, other, ⟨place, program >>= rest⟩⟩
      ⟨(program.run state).2, other, ⟨place, rest (program.run state).1⟩⟩ := by
  induction program generalizing state with
  | done value => exact .refl
  | step update next ih =>
      exact .head (.second (.steps place update _) trivial) (ih state _)

end Uninterrupted

end

end DpdkWrapper.Threads
