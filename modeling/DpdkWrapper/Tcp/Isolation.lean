import DpdkWrapper.Tcp.ClientPackets
import DpdkWrapper.Wire.Build

/-!
# Clients do not see each other

All clients share the slots, the flow table and the lists of a poll.  In every run, what
the stack holds and has done for one client is nevertheless what the client's own
functions make of its own inputs: its segments, the calls on its connections, the starts
and ends of polls, and, for a segment that asks for a connection, whether there was a slot
for it.

The run lemma compares two machines step by step, the stack and the functions of one client.
Slots, generations and the shared lists do not occur in the second one, so nothing of another
client can reach it.
-/

namespace DpdkWrapper.Tcp

open Threads Wire

/-- The pool and the queue do not fail at the end of a poll, and calls are made with ids
that the application has been given. -/
def FaultFree (state : State) : Action → Prop
  | .task (.endPoll env) => env.Unfailing
  | .task _ => True
  | .call call => ∃ owner : Tuple, call.conn ∈ owner.names state.memory.rx.log

/-- A run of smooth actions, with what it is to one client. -/
inductive Feeds (k : TcpStack) (tuple : Tuple) : List Input → State → Prop
  | start : Feeds k tuple [] (State.initial k)
  | step {inputs : List Input} {state state' : State} {action : Action}
      (feeds : Feeds k tuple inputs state) (act : Act k state action state')
      (smooth : FaultFree state action) :
      Feeds k tuple (inputs ++ (action.input? k tuple state.memory).toList) state'

section

variable {k : TcpStack} {tuple : Tuple} {state state' : State} {action : Action}
  {inputs : List Input}

/-- An action does to a client what the client's input does. -/
theorem Act.client (act : Act k state action state') (reachable : Reachable k state)
    (smooth : FaultFree state action) (sparse : FewOpensEach state'.memory) :
    state'.memory.client tuple =
      (state.memory.client tuple).react k (action.input? k tuple state.memory) := by
  have before := act.sparse reachable sparse
  cases act with
  | @task phase phase' mem task enabled =>
      cases Phase.next_cases enabled with
      | beginPoll => exact beginPoll_client reachable
      | packet packet more => exact process_client packet reachable more before sparse
      | endPoll env => exact endPoll_client reachable smooth before
  | call call =>
      obtain ⟨owner, given⟩ := smooth
      exact call_client reachable before call given

theorem Feeds.reachable (feeds : Feeds k tuple inputs state) : Reachable k state := by
  induction feeds with
  | start => exact Run.refl
  | step _ act _ ih => exact ih.step act trivial

theorem FewOpensEach.of_length {mem : Memory} (short : mem.rx.log.length < 2 ^ 32 - 1) :
    FewOpensEach mem :=
  fun _ => Nat.lt_of_le_of_lt List.count_le_length short

theorem client_initial (k : TcpStack) (tuple : Tuple) :
    (Memory.initial k).client tuple = Client.initial := by
  have nobody : ∀ i, ¬IsSlotOf k tuple (Memory.initial k) i := fun i isSlot => isSlot.live rfl
  have accounts : Accounting k (Memory.initial k).rx := (InOrder.initial k).accounts
  rw [Memory.client, (slotOf_eq_none accounts).mpr nobody]
  rfl

/-- The run lemma: the client's view of a run is a run of its own inputs. -/
theorem Feeds.client (feeds : Feeds k tuple inputs state) (sparse : FewOpensEach state.memory) :
    state.memory.client tuple = Client.initial.run k inputs := by
  induction feeds with
  | start => exact client_initial k tuple
  | @step inputs state state' action feeds act smooth ih =>
      have before := act.sparse feeds.reachable sparse
      rw [act.client feeds.reachable smooth sparse, ih before, Client.run, Client.run,
        List.foldl_append]
      cases action.input? k tuple state.memory <;> rfl

/-- What the stack holds and has done for a client, what it has told the application about
it and what calls on its connections return depends on nothing but the client's own
inputs. -/
theorem clients_are_isolated (feeds : Feeds k tuple inputs state)
    (sparse : FewOpensEach state.memory) :
    let client := Client.initial.run k inputs
    state.memory.client tuple = client ∧
      ∀ conn ∈ tuple.names state.memory.rx.log,
        let number := (tuple.names state.memory.rx.log).idxOf conn
        ((sendable k conn).run state.memory).1 = client.sendable number ∧
          ((sendSpace k conn).run state.memory).1 = client.sendSpace number ∧
          ∀ bytes env, ((send k conn bytes env).run state.memory).1 =
            client.sendReturns k number bytes env := by
  intro client
  have same : state.memory.client tuple = client := feeds.client sparse
  refine ⟨same, fun conn given => ?_⟩
  rw [← same]
  exact returns_own feeds.reachable sparse given

theorem peerIp_ne_zero : (0x0a000002 : BitVec 32) ≠ 0 := by
  decide

/-- The tuple of the packets that `peerPacket` makes. -/
def peerTuple : Tuple :=
  ⟨0x0a000002, 4000, 80, peerIp_ne_zero⟩

/-- Another client of the same host. -/
def otherTuple : Tuple :=
  ⟨0x0a000002, 4001, 80, peerIp_ne_zero⟩

/-- A packet of this client: the source port is at offset 34. -/
def otherPacket (seq ack : BitVec 32) (flags : Byte) (window : BitVec 16) (payload : List Byte) :
    RxPacket :=
  ⟨put (peerFrame seq ack flags window payload) 34 (toBytes 2 4001), true, 0, true⟩

/-- The small stack with two slots. -/
def twoSlots : TcpStack :=
  { singleSlot with
    maxConnections := 2
    maxConnections_pos := by decide
    maxConnections_lt := by decide }

/-- Two clients are accepted in turn.  After a `send` to the first one, two bytes less fit into
its window, whatever segments the second one has sent: one with data before the `send`, and a
RST after it. -/
theorem clients_are_isolated_of_send :
    ∃ (inputs : List Input) (state : State), Feeds twoSlots peerTuple inputs state ∧
      FewOpensEach state.memory ∧ inputs.length = 4 ∧
      state.memory.client peerTuple = Client.initial.run twoSlots inputs ∧
      (Client.initial.run twoSlots inputs).statuses = [.present] ∧
      otherTuple.names state.memory.rx.log = [⟨1, 1⟩] ∧
      ((sendSpace twoSlots ⟨0, 1⟩).run state.memory).1 = 998 := by
  have initial : Feeds twoSlots peerTuple [] (State.initial twoSlots) := .start
  have begun := initial.step (.task .beginPoll rfl) trivial
  have asked := begun.step (.task (.packet (peerPacket 7 0 synFlag 1000 [])) rfl) trivial
  have askedToo := asked.step (.task (.packet (otherPacket 50 0 synFlag 500 [])) rfl) trivial
  have accepted := askedToo.step (.task (.packet (peerPacket 8 1 ackFlag 1000 [])) rfl) trivial
  have acceptedToo := accepted.step (.task (.packet (otherPacket 51 1 ackFlag 500 [])) rfl) trivial
  have data := acceptedToo.step (.task (.packet (otherPacket 51 1 ackFlag 500 [9])) rfl) trivial
  have sent := data.step (.call (.send ⟨0, 1⟩ [1, 2] ⟨fun _ _ => true, fun _ => 1⟩))
    ⟨peerTuple, by decide +kernel⟩
  have reset := sent.step (.task (.packet (otherPacket 52 1 rstFlag 500 [])) rfl) trivial
  obtain ⟨same, returns⟩ := clients_are_isolated reset (.of_length (by decide +kernel))
  refine ⟨_, _, reset, .of_length ?_, ?_, same, ?_, ?_, (returns ⟨0, 1⟩ ?_).2.1.trans ?_⟩
  all_goals decide +kernel

end

end DpdkWrapper.Tcp
