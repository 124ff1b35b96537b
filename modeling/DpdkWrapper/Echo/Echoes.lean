import DpdkWrapper.Echo.Delivery

/-!
# The echo server echoes

Both threads are put together.  In every interleaving in which the stack keeps its promises,
the bytes sent on a connection are bytes received on it, in order and without gaps, and each
connection is closed once.
-/

namespace DpdkWrapper.Echo

open Tcp Threads Wire

/-- The bytes that have arrived on a connection. -/
def arrived (conn : ConnId) (events : List TcpEvent) : List Byte :=
  events.flatMap fun event =>
    if event.type = .data ∧ event.conn = conn then event.data else []

/-- Splitting an event into items keeps its bytes. -/
theorem received_eventWorks (conn : ConnId) (event : TcpEvent) :
    received conn (eventWorks event) =
      if event.type = .data ∧ event.conn = conn then event.data else [] := by
  unfold received eventWorks
  rcases kind : event.type with _ | _ | _ | _ | _
  · simp
  · rw [List.flatMap_map]
    by_cases here : event.conn = conn
    · rw [if_pos ⟨rfl, here⟩]
      calc
        (chunks event.data.length event.data).flatMap
            (fun chunk => Work.bytesFor ⟨.data, event.conn, chunk⟩ conn) =
          (chunks event.data.length event.data).flatMap id :=
            congrArg (List.flatMap · _) (funext fun chunk => if_pos ⟨rfl, here⟩)
        _ = event.data := by
            rw [List.flatMap_id]
            exact flatten_chunks (Nat.le_refl _)
    · rw [if_neg fun both => here both.2]
      simp [Work.bytesFor, here]
  · simp [Work.bytesFor]
  · simp
  · simp [Work.bytesFor]

theorem received_worksOf (conn : ConnId) (events : List TcpEvent) :
    received conn (worksOf events) = arrived conn events := by
  rw [received, worksOf, List.flatMap_assoc, arrived]
  exact congrArg (List.flatMap · events) (funext (received_eventWorks conn))

/-- What is required of the runs: every state is regular. -/
abbrev KeepsContract (_ later : Server) : Prop :=
  later.SenderContract

/-- The threads keep to each other's terms. -/
theorem parallel_echo (queues : Nat) :
    @Parallel Server (inboundLoop queues) outboundLoop KeepsContract (fun _ => feeding)
      (fun _ => Waiting []) (fun _ => serving) (fun _ => BetweenRounds) where
  first := inboundLoop_keeps queues _
  second := outboundLoop_keeps
  firstRelies _ _ _ _ _ kept := kept.1
  secondRelies _ _ _ _ _ kept := kept

section Initial

variable (items : Nat → WorkItem)

theorem initial_waiting : Waiting [] (Server.initial items) where
  represents := SpscRing.represents_initial items
  order := rfl
  whole := fun _ member => absurd member List.not_mem_nil

theorem initial_resting : BetweenRounds (Server.initial items) := by
  refine .polling rfl ⟨SpscRing.represents_initial items, List.nil_prefix, ?_, tally_nil _, ?_⟩
  · exact fun conn => account_nil conn
  · exact fun _ member => absurd member List.not_mem_nil

theorem initial_sound (queues : Nat) :
    (Running.initial queues items).Sound (fun _ => feeding) (fun _ => Waiting [])
      (fun _ => serving) (fun _ => BetweenRounds) where
  first := Program.meets_done fun _ moves => (initial_waiting items).stable moves
  second := Program.meets_done fun _ moves => (initial_resting items).stable moves

end Initial

/-- What holds at every moment. -/
structure Server.Ordered (server : Server) : Prop where
  represents : server.ring.Represents
  fed : server.ItemsCommitted
  faithful : server.Faithful

section Runs

variable {queues : Nat} {items : Nat → WorkItem} {running : Running queues}

theorem OutboundEffect.ordered {server later : Server} (ordered : server.Ordered)
    (moves : OutboundEffect server later) (faithful : later.Faithful) : later.Ordered where
  represents := ordered.represents.consumesAll narrow_ringBits moves.ring
  fed := by
    rw [Server.ItemsCommitted, (SpscRing.spares_consumesAll moves.ring).2.2.1, moves.handled]
    exact ordered.fed
  faithful := faithful

theorem InboundEffect.ordered {server later : Server} (ordered : server.Ordered)
    (moves : InboundEffect server later) : later.Ordered where
  represents := ordered.represents.producesAll narrow_ringBits moves.ring
  fed := moves.fed ordered.fed
  faithful := by
    constructor
    · intro conn
      rw [moves.calls]
      rcases moves.handled with ⟨rest, same⟩
      refine (ordered.faithful.echo conn).trans (received_mono conn ?_)
      rw [← same, worksOf, worksOf, List.flatMap_append]
      exact List.prefix_append _ _
    · rw [moves.calls]
      exact ordered.faithful.once

theorem ordered_of_run (run : Interleaves KeepsContract (Running.initial queues items) running) :
    running.state.Ordered := by
  refine (parallel_echo queues).invariant Server.Ordered (initial_sound items queues) ?_ ?_ ?_ run
  · refine ⟨SpscRing.represents_initial items, List.nil_prefix, fun _ => List.nil_prefix, ?_⟩
    exact List.nodup_nil
  · exact fun _ _ _ ordered _ moves => moves.ordered ordered
  · exact fun _ _ _ ordered _ kept => kept.1.ordered ordered (kept.2 ordered.faithful)

/-! ## Uninterrupted rounds -/

theorem run_inbound {place place' : Nat × List TcpEvent} {server : Server} {program : Code Unit}
    {other : Busy outboundLoop}
    (run : Interleaves KeepsContract (Running.initial queues items)
      ⟨server, ⟨place, .done ()⟩, other⟩)
    (starts : (inboundLoop queues).starts server place program place')
    (regular : program.Throughout Server.SenderContract server) :
    Interleaves KeepsContract (Running.initial queues items)
      ⟨(program.run server).2, ⟨place', .done ()⟩, other⟩ := by
  have started := run.tail (.first (.starts starts) regular.start)
  exact started.trans (@Interleaves.finishFirstTracing Server (inboundLoop queues) outboundLoop
    KeepsContract server program place' other regular.traces)

theorem run_outbound {server : Server} {program : Code Unit} {other : Busy (inboundLoop queues)}
    (run : Interleaves KeepsContract (Running.initial queues items) ⟨server, other, ⟨(), .done ()⟩⟩)
    (starts : server.Round program) (regular : program.Throughout Server.SenderContract server) :
    Interleaves KeepsContract (Running.initial queues items)
      ⟨(program.run server).2, other, ⟨(), .done ()⟩⟩ := by
  have advances : outboundLoop.Advances server ⟨(), .done ()⟩ server ⟨(), program⟩ :=
    .starts starts
  have started := run.tail (.second advances regular.start)
  exact started.trans (@Interleaves.finishSecondTracing Server (inboundLoop queues) outboundLoop
    KeepsContract server program () other regular.traces)

/-! ## A short conversation -/

instance (works : List Work) : Decidable (GenerationsIncrease works) :=
  decidable_of_iff
    (works.Pairwise (fun earlier later => earlier.conn.slot = later.conn.slot →
      earlier.conn.generation.toNat ≤ later.conn.generation.toNat) ∧
        ∀ work ∈ works, work.conn.generation ≠ 0)
    ⟨fun both => ⟨both.1, both.2⟩, fun rising => ⟨rising.order, rising.valid⟩⟩

instance (server : Server) : Decidable server.SenderContract :=
  decidable_of_iff
    (server.calls.Pairwise (fun later earlier => later.contradicts earlier = false) ∧
      GenerationsIncrease (worksOf server.handled))
    ⟨fun both => ⟨both.1, both.2⟩, fun regular => ⟨regular.truthful, regular.rising⟩⟩

/-- Five bytes arrive. -/
def greeting : TcpEvent :=
  ⟨.data, ⟨0, 1⟩, [104, 101, 108, 108, 111], 0x0a000002, 4000, 80⟩

/-- The peer ends the connection. -/
def farewell : TcpEvent :=
  ⟨.peerClosed, ⟨0, 1⟩, [], 0x0a000002, 4000, 80⟩

/-- The sender takes up to three bytes at a time. -/
def RoundEnv.slow : RoundEnv :=
  ⟨false, true, 3⟩

/-- What is in the slots at the start. -/
def blankItem (_ : Nat) : WorkItem :=
  endItem .reset ⟨0, 0⟩ []

/-- The inbound thread has handled both events. -/
def conversationHandled : Server :=
  ((handle [] farewell).run ((handle [] greeting).run
    (drainOverflow.run (Server.initial blankItem)).2).2).2

/-- The outbound thread has sent the bytes in two parts, and closed. -/
def conversationServed : Server :=
  let entered := ((pollRing .slow).run conversationHandled).2
  let first := ((retry 0 0 .slow).run entered).2
  let second := ((retry 0 3 .slow).run first).2
  let finished := ((retry 0 5 .slow).run second).2
  ((pollRing .slow).run finished).2

theorem conversationHandled_run :
    Interleaves KeepsContract (Running.initial 1 blankItem)
      ⟨conversationHandled, ⟨(0, []), .done ()⟩, ⟨(), .done ()⟩⟩ := by
  have start : Interleaves KeepsContract (Running.initial 1 blankItem)
      ⟨Server.initial blankItem, ⟨(0, []), .done ()⟩, ⟨(), .done ()⟩⟩ := .refl
  have drained := run_inbound start (Or.inl ⟨rfl, rfl, rfl⟩) (by decide +kernel)
  have polled := run_inbound drained
    (Or.inr (Or.inl ⟨0, [greeting, farewell], rfl, rfl, rfl⟩)) (by decide +kernel)
  have greeted := run_inbound polled
    (Or.inr (Or.inr ⟨0, greeting, [farewell], [], rfl, rfl, rfl⟩)) (by decide +kernel)
  exact run_inbound greeted
    (Or.inr (Or.inr ⟨0, farewell, [], [], rfl, rfl, rfl⟩)) (by decide +kernel)

theorem conversationServed_run :
    Interleaves KeepsContract (Running.initial 1 blankItem)
      ⟨conversationServed, ⟨(0, []), .done ()⟩, ⟨(), .done ()⟩⟩ := by
  have entered := run_outbound conversationHandled_run
    ⟨.slow, by decide +kernel, Or.inl ⟨by decide +kernel, rfl⟩⟩ (by decide +kernel)
  have first := run_outbound entered
    ⟨.slow, by decide +kernel, Or.inr ⟨0, 0, by decide +kernel, rfl⟩⟩ (by decide +kernel)
  have second := run_outbound first
    ⟨.slow, by decide +kernel, Or.inr ⟨0, 3, by decide +kernel, rfl⟩⟩ (by decide +kernel)
  have finished := run_outbound second
    ⟨.slow, by decide +kernel, Or.inr ⟨0, 5, by decide +kernel, rfl⟩⟩ (by decide +kernel)
  exact run_outbound finished
    ⟨.slow, by decide +kernel, Or.inl ⟨by decide +kernel, rfl⟩⟩ (by decide +kernel)

/-! ## Results -/

/-- The bytes sent on a connection are, at every moment, the first ones of those that have
arrived on it; and no connection is closed twice. -/
theorem server_echoes_in_order
    (run : Interleaves KeepsContract (Running.initial queues items) running) :
    (∀ conn, echoed conn running.state.calls <+: arrived conn running.state.handled) ∧
      (closes running.state.calls).Nodup := by
  have faithful := (ordered_of_run run).faithful
  refine ⟨fun conn => ?_, faithful.once⟩
  rw [← received_worksOf]
  exact faithful.echo conn

theorem server_echoes_in_order_of_conversation :
    echoed ⟨0, 1⟩ conversationServed.calls = [104, 101, 108, 108, 111] ∧
      echoed ⟨0, 1⟩ conversationServed.calls <+: arrived ⟨0, 1⟩ conversationServed.handled :=
  ⟨by decide +kernel, (server_echoes_in_order conversationServed_run).1 ⟨0, 1⟩⟩

/-- The work is done in the order of the events, without loss or repetition, and the ring
never holds more than it has slots for. -/
theorem work_is_done_in_order
    (run : Interleaves KeepsContract (Running.initial queues items) running) :
    running.state.done <+: running.state.ring.pushed.map WorkItem.work ∧
      running.state.ring.pushed.map WorkItem.work <+: worksOf running.state.handled ∧
      running.state.ring.pushed.length ≤ running.state.ring.popped.length + 2 ^ ringBits := by
  have ordered := ordered_of_run run
  exact ⟨ordered.represents.order.map _, ordered.fed, ordered.represents.room⟩

theorem work_is_done_in_order_of_conversation :
    conversationServed.done.length = 2 ∧
      conversationServed.ring.pushed.map WorkItem.work <+: worksOf conversationServed.handled :=
  ⟨by decide +kernel, (work_is_done_in_order conversationServed_run).2.1⟩

/-- When both threads are between rounds and nothing is waiting, everything that has arrived
on a connection that has not been refused has been sent, and every connection that the peer
has ended has been closed. -/
theorem drained_server_has_echoed {place : Nat × List TcpEvent} {server : Server}
    (run : Interleaves KeepsContract (Running.initial queues items)
      ⟨server, ⟨place, .done ()⟩, ⟨(), .done ()⟩⟩)
    (idle : server.pc = .polling) (empty : server.ring.tail = server.ring.head)
    (drained : server.overflow = []) :
    (∀ conn, .sendable conn false ∉ server.calls → server.stopSeen = false →
      echoed conn server.calls = arrived conn server.handled) ∧
    ∀ event ∈ server.handled, event.type = .peerClosed ∨ event.type = .reset →
      .close event.conn ∈ server.calls := by
  have sound := (parallel_echo queues).sound (initial_sound items queues) run
  have waiting : Waiting [] server := sound.first.done
  have resting : BetweenRounds server := sound.second.done
  have nothing := (waiting.represents.isEmpty_iff narrow_ringBits).mp empty
  have all : server.ring.popped = server.ring.pushed :=
    waiting.represents.order.eq_of_length_le (Nat.le_of_not_lt nothing)
  have order := waiting.order
  rw [drained, List.map_nil, List.append_nil, List.append_nil, ← all] at order
  cases resting with
  | sending _ _ _ pc =>
      rw [idle] at pc
      cases pc
  | stopped pc =>
      rw [idle] at pc
      cases pc
  | polling _ serves =>
      constructor
      · intro conn unrefused going
        rcases serves.account conn with same | ⟨refused | stopping, _⟩
        · rw [← received_worksOf, ← order, same, List.append_nil]
          rfl
        · exact absurd refused unrefused
        · rw [going] at stopping
          cases stopping
      · intro event member ends
        have asked : ∃ work ∈ eventWorks event, work.what ≠ .data ∧ work.conn = event.conn := by
          unfold eventWorks
          rcases ends with kind | kind
          · rw [kind]
            exact ⟨_, List.mem_singleton_self _, by rintro ⟨⟩, rfl⟩
          · rw [kind]
            exact ⟨_, List.mem_singleton_self _, by rintro ⟨⟩, rfl⟩
        rcases asked with ⟨work, inside, notData, same⟩
        rw [← same]
        refine serves.ended work ?_ notData
        rw [Server.done, order]
        exact List.mem_flatMap.mpr ⟨event, member, inside⟩

theorem drained_server_has_echoed_of_conversation :
    echoed ⟨0, 1⟩ conversationServed.calls = arrived ⟨0, 1⟩ conversationServed.handled ∧
      .close ⟨0, 1⟩ ∈ conversationServed.calls := by
  have drained := drained_server_has_echoed conversationServed_run (by decide +kernel)
    (by decide +kernel) (by decide +kernel)
  exact ⟨drained.1 ⟨0, 1⟩ (by decide +kernel) (by decide +kernel),
    drained.2 farewell (by decide +kernel) (Or.inl rfl)⟩

end Runs

end DpdkWrapper.Echo
