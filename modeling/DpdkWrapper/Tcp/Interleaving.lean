import DpdkWrapper.Tcp.Slots
import DpdkWrapper.Threads.Parallel

/-!
# Interleaved runs

The inbound thread polls and the outbound thread makes calls, and their atomic steps come
in any order.  The application has its ids from `accepted` events, and makes calls on
those only.

A `System` is the shared memory with both threads in the middle of their programs.  `System.Runs`
is for interleavings whose steps satisfy a further condition, and `System.Reachable` for all of
them.  The section at the end has small stacks with a connection being served, closed and
reopened, which later modules use as examples.
-/

namespace DpdkWrapper.Tcp

open Threads Wire

/-- The `accepted` event of a connection has been pushed. -/
def Accepted (mem : Memory) (conn : ConnId) : Prop :=
  ∃ event, .event event ∈ mem.rx.log ∧ event.type = .accepted ∧ event.conn = conn

/-- Calls push no events. -/
theorem Accepted.call {k : TcpStack} {mem : Memory} {conn : ConnId}
    (accepted : Accepted mem conn) (call : Call) :
    Accepted ((call.code k).run mem).2 conn := by
  rw [Accepted, (call.run_frame k mem).rx]
  exact accepted

/-- The inbound thread runs the tasks of one poll after the other; `admits` says which
ones the network can bring about. -/
def inboundThread (k : TcpStack) (admits : Memory → Task → Prop) : Thread Memory where
  Place := Phase × Option Task
  starts mem place program place' := ∃ task, place.1.next task = some place'.1 ∧
    place'.2 = some task ∧ admits mem task ∧ program = task.code k

/-- The outbound thread runs one call of the application after the other. -/
def outboundThread (k : TcpStack) : Thread Memory where
  Place := Option Call
  starts mem _ program place' := ∃ call, Accepted mem call.conn ∧
    place' = some call ∧ program = call.code k

/-- Both threads on the shared memory. -/
abbrev System (k : TcpStack) (admits : Memory → Task → Prop) :=
  Config (inboundThread k admits) (outboundThread k)

/-- Any frames can arrive. -/
def anyTask (_ : Memory) (_ : Task) : Prop := True

def System.initial (k : TcpStack) (admits : Memory → Task → Prop) : System k admits where
  state := Memory.initial k
  first := ⟨(.idle, none), .done ()⟩
  second := ⟨none, .done ()⟩

/-- The configurations of all interleavings. -/
def System.Reachable {k : TcpStack} {admits : Memory → Task → Prop} (system : System k admits) :
    Prop :=
  Interleaves (fun _ _ => True) (System.initial k admits) system

variable {k : TcpStack} {admits : Memory → Task → Prop}

/-! ## Uninterrupted tasks and calls -/

/-- The configurations of the interleavings all of whose steps are in a relation. -/
def System.Runs (allowed : Memory → Memory → Prop) (system : System k admits) : Prop :=
  Interleaves allowed (System.initial k admits) system

section Runs

variable {allowed : Memory → Memory → Prop} {mem : Memory} {phase phase' : Phase}
  {last : Option Task} {place : Option Call} {program : Code Unit}
  {outbound : Busy (outboundThread k)} {inbound : Busy (inboundThread k admits)}

/-- The inbound thread makes a whole task. -/
theorem System.Runs.task
    (run : System.Runs allowed (⟨mem, ⟨(phase, last), .done ()⟩, outbound⟩ : System k admits))
    (task : Task) (enabled : phase.next task = some phase') (admitted : admits mem task)
    (start : allowed mem mem) (traces : (task.code k).Traces allowed mem) :
    System.Runs allowed (⟨((task.code k).run mem).2, ⟨(phase', some task), .done ()⟩, outbound⟩ :
      System k admits) := by
  have starts : (inboundThread k admits).starts mem (phase, last) (task.code k)
      (phase', some task) := ⟨task, enabled, rfl, admitted, rfl⟩
  exact (run.tail (.first (.starts starts) start)).trans
    (Interleaves.finishFirstTracing _ outbound traces)

/-- The outbound thread starts a call on an id that the application has been given. -/
theorem System.Runs.begin
    (run : System.Runs allowed (⟨mem, inbound, ⟨place, .done ()⟩⟩ : System k admits))
    (call : Call) (accepted : Accepted mem call.conn) (start : allowed mem mem) :
    System.Runs allowed (⟨mem, inbound, ⟨some call, call.code k⟩⟩ : System k admits) :=
  run.tail (.second (.starts ⟨call, accepted, rfl, rfl⟩) start)

/-- The outbound thread makes some steps of its call. -/
theorem System.Runs.advance
    (run : System.Runs allowed (⟨mem, inbound, ⟨place, program⟩⟩ : System k admits)) (count : Nat)
    (traces : program.TracesFor allowed count mem) :
    System.Runs allowed (⟨(program.advance count mem).2, inbound,
      ⟨place, (program.advance count mem).1⟩⟩ : System k admits) :=
  run.trans (@Interleaves.advanceSecondTracing _ (inboundThread k admits) (outboundThread k) allowed
    mem program count place inbound traces)

/-- The outbound thread finishes its call. -/
theorem System.Runs.finish
    (run : System.Runs allowed (⟨mem, inbound, ⟨place, program⟩⟩ : System k admits))
    (traces : program.Traces allowed mem) :
    System.Runs allowed (⟨(program.run mem).2, inbound, ⟨place, .done ()⟩⟩ : System k admits) :=
  run.trans (@Interleaves.finishSecondTracing _ (inboundThread k admits) (outboundThread k) allowed
    mem program place inbound traces)

/-- The outbound thread makes a whole call. -/
theorem System.Runs.call
    (run : System.Runs allowed (⟨mem, inbound, ⟨place, .done ()⟩⟩ : System k admits))
    (call : Call) (accepted : Accepted mem call.conn) (start : allowed mem mem)
    (traces : (call.code k).Traces allowed mem) :
    System.Runs allowed (⟨((call.code k).run mem).2, inbound, ⟨some call, .done ()⟩⟩ :
      System k admits) :=
  (run.begin call accepted start).finish traces

/-! In `System.Reachable` every step is allowed. -/

theorem System.Reachable.task
    (run : System.Reachable (⟨mem, ⟨(phase, last), .done ()⟩, outbound⟩ : System k admits))
    (task : Task) (enabled : phase.next task = some phase') (admitted : admits mem task) :
    System.Reachable (⟨((task.code k).run mem).2, ⟨(phase', some task), .done ()⟩, outbound⟩ :
      System k admits) :=
  System.Runs.task run task enabled admitted trivial
    ((task.code k).traces_of_forall (fun _ _ => trivial) mem)

theorem System.Reachable.begin
    (run : System.Reachable (⟨mem, inbound, ⟨place, .done ()⟩⟩ : System k admits))
    (call : Call) (accepted : Accepted mem call.conn) :
    System.Reachable (⟨mem, inbound, ⟨some call, call.code k⟩⟩ : System k admits) :=
  System.Runs.begin run call accepted trivial

theorem System.Reachable.runs {α : Type} {program : Code α} {rest : α → Code Unit}
    (run : System.Reachable (⟨mem, inbound, ⟨place, program >>= rest⟩⟩ : System k admits)) :
    System.Reachable (⟨(program.run mem).2, inbound, ⟨place, rest (program.run mem).1⟩⟩ :
      System k admits) :=
  run.trans (@Interleaves.runSecond _ (inboundThread k admits) (outboundThread k) _ mem place
    program rest inbound)

theorem System.Reachable.advance
    (run : System.Reachable (⟨mem, inbound, ⟨place, program⟩⟩ : System k admits)) (count : Nat) :
    System.Reachable (⟨(program.advance count mem).2, inbound,
      ⟨place, (program.advance count mem).1⟩⟩ : System k admits) :=
  System.Runs.advance run count
    ((program.traces_of_forall (fun _ _ => trivial) mem).tracesFor count)

theorem System.Reachable.finish
    (run : System.Reachable (⟨mem, inbound, ⟨place, program⟩⟩ : System k admits)) :
    System.Reachable (⟨(program.run mem).2, inbound, ⟨place, .done ()⟩⟩ : System k admits) :=
  System.Runs.finish run (program.traces_of_forall (fun _ _ => trivial) mem)

theorem System.Reachable.call
    (run : System.Reachable (⟨mem, inbound, ⟨place, .done ()⟩⟩ : System k admits))
    (call : Call) (accepted : Accepted mem call.conn) :
    System.Reachable (⟨((call.code k).run mem).2, inbound, ⟨some call, .done ()⟩⟩ :
      System k admits) :=
  (run.begin call accepted).finish

end Runs

/-! ## The receiver between tasks -/

/-- What the inbound thread keeps between tasks. -/
def ReceiverInvariant (k : TcpStack) (mem : Memory) : Prop :=
  Accounting k mem.rx ∧ Ready mem

/-- Uninterrupted tasks keep the receiver in order. -/
theorem ReceiverInvariant.task {mem : Memory} (orderly : ReceiverInvariant k mem)
    (task : Task) :
    ReceiverInvariant k ((task.code k).run mem).2 := by
  have admitted : task.Admitted k .lax mem.rx :=
    Task.admitted_of_acks (fun _ _ => trivial) k mem.rx task
  exact (Task.code_spec orderly.1 task admitted).run rfl orderly.2

theorem ReceiverInvariant.initial (k : TcpStack) : ReceiverInvariant k (Memory.initial k) :=
  ⟨Accounting.initial k, fun _ => rfl⟩

/-- What stays within the frame of calls is a step of the outbound thread. -/
theorem CallFrame.outStep {slot : Nat} {mem mem' : Memory}
    (frame : CallFrame slot mem mem') : OutStep .lax mem mem' where
  rx := frame.rx
  slot i := by
    constructor
    case conn => exact congrArg (fun rx => rx.slots i) frame.rx
    case opens => exact congrArg (fun rx => opens i rx.log) frame.rx
    case resets => exact frame.resets i
    case taken => exact congrArg (fun rx => acceptedSince i rx.log) frame.rx
    case listed => exact congrArg (fun rx => rx.freeSlots.contains i) frame.rx
    case out => exact False.elim
    case released => exact False.elim

/-- Calls of the outbound thread, whatever the inbound thread does. -/
def framing : Protocol Memory where
  rely _ _ := True
  assume _ _ := True
  guarantee mem mem' := ∃ slot, CallFrame slot mem mem'
  rely_refl _ := trivial
  rely_trans _ _ _ _ _ := trivial
  guarantee_refl mem := ⟨0, .refl 0 mem⟩

/-- The tasks of the inbound thread keep its protocol. -/
theorem inboundThread_keeps (k : TcpStack) (admits : Memory → Task → Prop)
    (allowed : Memory → Memory → Prop) {terms : Terms}
    (acks : ∀ identity ack, terms.acks identity ack) :
    (inboundThread k admits).Keeps allowed (fun _ => inboundProtocol terms)
      (fun _ => ReceiverInvariant k) where
  assumed _ _ _ _ := trivial
  starts := by
    rintro _ mem _ _ ⟨accounts, ready⟩ ⟨task, _, _, _, rfl⟩
    exact task.code_spec accounts (Task.admitted_of_acks acks k mem.rx task) mem rfl ready

/-- The thread at rest before the first poll. -/
theorem System.initial_first (k : TcpStack) (admits : Memory → Task → Prop) (terms : Terms) :
    (System.initial k admits).first.Sound (fun _ => inboundProtocol terms)
    (fun _ => ReceiverInvariant k)
      (Memory.initial k) :=
  Program.meets_done fun _ moves =>
    ⟨by rw [moves.rx]; exact (ReceiverInvariant.initial k).1,
      (ReceiverInvariant.initial k).2.stable moves⟩

/-- Without any assumption, both threads keep to their parts of the memory. -/
theorem parallel_lax (k : TcpStack) (admits : Memory → Task → Prop) :
    @Parallel Memory (inboundThread k admits) (outboundThread k) (fun _ _ => True)
      (fun _ => inboundProtocol .lax) (fun _ => ReceiverInvariant k) (fun _ => framing)
      (fun _ _ => True) where
  first := inboundThread_keeps k admits _ fun _ _ => trivial
  second :=
    { assumed := fun _ _ _ _ => trivial
      starts := by
        rintro _ _ _ _ _ ⟨call, _, _, rfl⟩
        refine (call.code_always k).meets ?_ ?_ trivial
        · exact fun _ _ _ _ => trivial
        · exact fun _ _ frame _ => ⟨⟨_, frame⟩, trivial⟩ }
  firstRelies _ _ _ _ _ := fun ⟨_, frame⟩ => frame.outStep
  secondRelies _ _ _ _ _ _ := trivial

theorem System.initial_lax (k : TcpStack) (admits : Memory → Task → Prop) :
    (System.initial k admits).Sound (fun _ => inboundProtocol .lax) (fun _ => ReceiverInvariant k)
      (fun _ => framing) (fun _ _ => True) where
  first := System.initial_first k admits .lax
  second := Program.meets_done fun _ _ => trivial

/-- Between tasks the receiver is in order, whatever the outbound thread is at. -/
theorem System.Reachable.orderly {mem : Memory} {place : Phase × Option Task}
    {other : Busy (outboundThread k)}
    (run : System.Reachable (⟨mem, ⟨place, .done ()⟩, other⟩ : System k admits)) :
    ReceiverInvariant k mem :=
  ((parallel_lax k admits).sound (System.initial_lax k admits) run).first.done

/-! ## How often a slot is opened -/

/-- Generations of a slot are told apart as long as it has been opened less often. -/
def openLimit : Nat := 2 ^ 32 - 1

/-- A slot has been opened fewer than 2^32 - 1 times. -/
def FewOpens (i : Nat) (mem : Memory) : Prop :=
  opens i mem.rx.log < openLimit

/-- The number of openings never falls. -/
theorem SlotStep.opens_le {terms : Terms} {i : Nat} {view view' : SlotView}
    (step : SlotStep terms i view view') : view.opens ≤ view'.opens := by
  cases step with
  | opening => exact Nat.le_succ _
  | _ => exact Nat.le_refl _

theorem InStep.few {terms : Terms} {i : Nat} {mem mem' : Memory}
    (step : InStep terms mem mem') (few : FewOpens i mem') : FewOpens i mem :=
  Nat.lt_of_le_of_lt (step.slot i).opens_le few

theorem CallFrame.few {slot i : Nat} {mem mem' : Memory}
    (frame : CallFrame slot mem mem') (few : FewOpens i mem') : FewOpens i mem := by
  unfold FewOpens at few ⊢
  rwa [frame.rx] at few

/-- If a slot has been opened that few times at the end of an interleaving, this was so all
the time. -/
theorem System.Reachable.few {i : Nat} {system : System k admits} (run : system.Reachable)
    (few : FewOpens i system.state) :
    Interleaves (fun _ mem => FewOpens i mem) (System.initial k admits) system := by
  have parallel := parallel_lax k admits
  have begins := System.initial_lax k admits
  induction run with
  | refl => exact .refl
  | tail run step ih =>
      have sound := parallel.sound begins run
      cases step with
      | first advances permitted =>
          have kept := (parallel.first.advances advances sound.first permitted).1
          exact (ih (kept.few few)).tail (.first advances few)
      | second advances permitted =>
          obtain ⟨_, frame⟩ := (parallel.second.advances advances sound.second permitted).1
          exact (ih (frame.few few)).tail (.second advances few)

/-! ## The small stack -/

/-- The small stack when its connection has been accepted; the id is ⟨0, 1⟩. -/
def singleSlotServing : System singleSlot anyTask where
  state := singleSlotAccepted.memory
  first := ⟨(.polling 2, some (.packet (peerPacket 8 1 ackFlag 1000 []))), .done ()⟩
  second := ⟨none, .done ()⟩

theorem singleSlotServing_reachable : singleSlotServing.Reachable := by
  have start : System.Reachable (⟨Memory.initial singleSlot, ⟨(.idle, none), .done ()⟩,
      ⟨none, .done ()⟩⟩ : System singleSlot anyTask) := .refl
  have polling := start.task .beginPoll rfl trivial
  have pending := polling.task (.packet (peerPacket 7 0 synFlag 1000 [])) rfl trivial
  exact pending.task (.packet (peerPacket 8 1 ackFlag 1000 [])) rfl trivial

theorem singleSlotServing_accepted : Accepted singleSlotServing.state ⟨0, 1⟩ :=
  ⟨⟨.accepted, ⟨0, 1⟩, [], 0x0a000002, 4000, 80⟩, by decide +kernel, rfl, rfl⟩

/-- The pool has buffers, and the data queue has room. -/
def CloseEnv.unfailing : CloseEnv where
  pool _ := true
  takes _ := true

/-- The same after the application has closed the connection. -/
def singleSlotReleased : System singleSlot anyTask where
  state := ((close singleSlot ⟨0, 1⟩ .unfailing).run singleSlotAccepted.memory).2
  first := singleSlotServing.first
  second := ⟨some (.close ⟨0, 1⟩ .unfailing), .done ()⟩

theorem singleSlotReleased_reachable : singleSlotReleased.Reachable :=
  singleSlotServing_reachable.call (.close ⟨0, 1⟩ .unfailing) singleSlotServing_accepted

/-- The pool has buffers, and the data queue takes every burst. -/
def SendEnv.unfailing : SendEnv where
  pool _ _ := true
  take _ := maxBurst

/-- What tasks make of the memory, one after the other. -/
def afterTasks (k : TcpStack) (tasks : List Task) (mem : Memory) : Memory :=
  tasks.foldl (fun mem task => ((task.code k).run mem).2) mem

/-- The memory when the peer has closed the connection too, and its next one has been
accepted in the same slot. -/
def reopenedMemory : Memory :=
  afterTasks singleSlot
    [.packet (peerPacket 8 2 (finFlag ||| ackFlag) 1000 []), .endPoll ⟨fun _ => true, maxControl⟩,
      .beginPoll, .packet (peerPacket 20 0 synFlag 1000 []),
      .packet (peerPacket 21 1 ackFlag 1000 [])] singleSlotReleased.state

/-- The small stack with that memory; the new id is ⟨0, 2⟩. -/
def singleSlotReopened : System singleSlot anyTask where
  state := reopenedMemory
  first := ⟨(.polling 2, some (.packet (peerPacket 21 1 ackFlag 1000 []))), .done ()⟩
  second := ⟨some (.close ⟨0, 1⟩ .unfailing), .done ()⟩

theorem singleSlotReopened_reachable : singleSlotReopened.Reachable := by
  have finished := singleSlotReleased_reachable.task
    (.packet (peerPacket 8 2 (finFlag ||| ackFlag) 1000 [])) rfl trivial
  have flushed := finished.task (.endPoll ⟨fun _ => true, maxControl⟩) rfl trivial
  have reaped := flushed.task .beginPoll rfl trivial
  have pending := reaped.task (.packet (peerPacket 20 0 synFlag 1000 [])) rfl trivial
  exact pending.task (.packet (peerPacket 21 1 ackFlag 1000 [])) rfl trivial

theorem singleSlotReopened_accepted :
    Accepted reopenedMemory ⟨0, 1⟩ ∧ Accepted reopenedMemory ⟨0, 2⟩ :=
  ⟨⟨⟨.accepted, ⟨0, 1⟩, [], 0x0a000002, 4000, 80⟩, by decide +kernel, rfl, rfl⟩,
    ⟨⟨.accepted, ⟨0, 2⟩, [], 0x0a000002, 4000, 80⟩, by decide +kernel, rfl, rfl⟩⟩

/-- What calls make of the memory, one after the other. -/
def afterCalls (k : TcpStack) (calls : List Call) (mem : Memory) : Memory :=
  calls.foldl (fun mem call => ((call.code k).run mem).2) mem

/-- The same after calls on the old id and one on the new id. -/
def singleSlotStale : System singleSlot anyTask where
  state := afterCalls singleSlot
    [.sendable ⟨0, 1⟩, .send ⟨0, 1⟩ [1] .unfailing, .close ⟨0, 1⟩ .unfailing, .sendable ⟨0, 2⟩]
    reopenedMemory
  first := singleSlotReopened.first
  second := ⟨some (.sendable ⟨0, 2⟩), .done ()⟩

theorem singleSlotStale_reachable : singleSlotStale.Reachable := by
  obtain ⟨old, new⟩ := singleSlotReopened_accepted
  have asked := singleSlotReopened_reachable.call (.sendable ⟨0, 1⟩) old
  have sent := asked.call (.send ⟨0, 1⟩ [1] .unfailing) (old.call _)
  have closed := sent.call (.close ⟨0, 1⟩ .unfailing) ((old.call _).call _)
  exact closed.call (.sendable ⟨0, 2⟩) (((new.call _).call _).call _)

/-! ## Short segments -/

/-- The small stack with segments of at most two bytes. -/
def shortSegments : TcpStack :=
  { singleSlot with mss := 2, mss_ne_zero := by decide }

/-- The memory of that stack when its connection has been accepted. -/
def shortSegmentsMemory : Memory :=
  afterTasks shortSegments
    [.beginPoll, .packet (peerPacket 7 0 synFlag 1000 []), .packet (peerPacket 8 1 ackFlag 1000 [])]
    (Memory.initial shortSegments)

def shortSegmentsServing : System shortSegments anyTask where
  state := shortSegmentsMemory
  first := ⟨(.polling 2, some (.packet (peerPacket 8 1 ackFlag 1000 []))), .done ()⟩
  second := ⟨none, .done ()⟩

theorem shortSegmentsServing_reachable : shortSegmentsServing.Reachable := by
  have start : System.Reachable (⟨Memory.initial shortSegments, ⟨(.idle, none), .done ()⟩,
      ⟨none, .done ()⟩⟩ : System shortSegments anyTask) := .refl
  have polling := start.task .beginPoll rfl trivial
  have pending := polling.task (.packet (peerPacket 7 0 synFlag 1000 [])) rfl trivial
  exact pending.task (.packet (peerPacket 8 1 ackFlag 1000 [])) rfl trivial

theorem shortSegmentsServing_accepted : Accepted shortSegmentsMemory ⟨0, 1⟩ :=
  ⟨⟨.accepted, ⟨0, 1⟩, [], 0x0a000002, 4000, 80⟩, by decide +kernel, rfl, rfl⟩

/-- The pool has buffers, and the data queue takes one segment of a burst. -/
def SendEnv.takesOne : SendEnv where
  pool _ _ := true
  take _ := 1

end DpdkWrapper.Tcp
