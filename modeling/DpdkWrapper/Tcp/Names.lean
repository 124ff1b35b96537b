import DpdkWrapper.Tcp.Clients

/-!
# The ids of a client's connections

An id that an `accepted` event has given out leads to a slot.  As long as the slot still
has the id's generation it holds the id's connection, with the tuple of that event; once
the slot has been opened again, no id of an earlier connection leads to it.

An id is given out once, and the names of a client are in the order in which its connections
were accepted.  All of this needs that no slot has been opened so often that a generation comes
again.
-/

namespace DpdkWrapper.Tcp

open Threads Wire

/-! ## Addresses -/

namespace Tuple

variable {tuple : Tuple}

theorem is_iff {peerIp : BitVec 32} {peerPort localPort : BitVec 16} :
    tuple.is peerIp peerPort localPort = true ↔
      peerIp = tuple.peerIp ∧ peerPort = tuple.peerPort ∧ localPort = tuple.localPort := by
  simp [is, and_assoc]

theorem ofConnection_of_matches {session : Session} {seg : Segment}
    (named : session.Matches seg) : tuple.ofConnection session.conn = tuple.ofSegment seg := by
  rw [ofConnection, ofSegment, named.peerIp, named.peerPort, named.localPort]

theorem matches_of_ofConnection {session : Session} {seg : Segment}
    (here : tuple.ofConnection session.conn = true) (from' : tuple.ofSegment seg = true) :
    session.Matches seg := by
  obtain ⟨peerIp, peerPort, localPort⟩ := is_iff.mp here
  obtain ⟨srcIp, srcPort, dstPort⟩ := is_iff.mp from'
  exact ⟨srcIp.trans peerIp.symm, srcPort.trans peerPort.symm, dstPort.trans localPort.symm⟩

theorem ofEvent_of_owns {slot : Nat} {c : TcpConnection} {event : TcpEvent}
    (owned : Owns slot c.identity event) : tuple.ofEvent event = tuple.ofConnection c := by
  rw [ofEvent, owned.peerAddr, owned.peerPort, owned.localPort]
  rfl

theorem ofReply_of_replyAddr {k : TcpStack} {c : TcpConnection} {segment : TxSegment}
    (addressed : segment.addr = replyAddr k c) :
    tuple.ofReply segment = tuple.ofConnection c := by
  rw [ofReply, addressed]
  rfl

/-! ## Names -/

theorem mem_names {conn : ConnId} {log : List RxEntry} :
    conn ∈ tuple.names log ↔ ∃ event ∈ eventsOf conn log, tuple.accepts event = true := by
  simp only [names, eventsOf, List.mem_map, List.mem_filter, decide_eq_true_eq]
  constructor
  · rintro ⟨event, ⟨member, accepts⟩, same⟩
    exact ⟨event, ⟨member, same⟩, accepts⟩
  · rintro ⟨event, ⟨member, same⟩, accepts⟩
    exact ⟨event, ⟨member, accepts⟩, same⟩

theorem names_append (added log : List RxEntry) :
    tuple.names (added ++ log) = tuple.names log ++ tuple.names added := by
  rw [names, events_append, List.filter_append, List.map_append, names, names]

theorem count_names (conn : ConnId) (log : List RxEntry) :
    (tuple.names log).count conn = ((eventsOf conn log).filter tuple.accepts).length := by
  rw [names, List.count, List.countP_map, List.countP_eq_length_filter, eventsOf,
    List.filter_filter, List.filter_filter]
  congr 2
  funext event
  exact Bool.and_comm _ _

end Tuple

/-! ## The connection with an id -/

/-- A word has one `accepted`. -/
theorem EventPattern.count_accepted {types : List TcpEventType} (word : EventPattern types) :
    types.count .accepted = 1 := by
  obtain ⟨count, half, halfMem, last, lastMem, rfl⟩ := word
  have none : ∀ list ∈ [[], [.closed], [.reset]], List.count TcpEventType.accepted list = 0 := by
    decide
  have neither : ∀ list ∈ [[], [.peerClosed]], List.count TcpEventType.accepted list = 0 := by
    decide
  rw [List.count_cons_self, List.count_append, List.count_append, List.count_replicate,
    neither half halfMem, none last lastMem]
  rfl

section

variable {k : TcpStack} {state : State} {tuple : Tuple}

/-- Fewer openings than there are generations. -/
def FewOpensEach (mem : Memory) : Prop :=
  ∀ i, opens i mem.rx.log < 2 ^ 32 - 1

theorem FewOpensEach.session_opens {mem : Memory} (sparse : FewOpensEach mem) (i : Nat) :
    (mem.session i).opens < 2 ^ 32 - 1 := by
  rw [Tcp.session_opens]
  exact sparse i

variable (reachable : Reachable k state) (sparse : FewOpensEach state.memory)
include reachable sparse

/-- The events with the id of the connection in a slot are its own. -/
theorem eventsOf_connId (i : Nat) :
    eventsOf (state.memory.session i).connId state.memory.rx.log =
      events (state.memory.session i).history := by
  have recorded := EventHistory.reachable reachable i
  have few := sparse.session_opens i
  have here : (state.memory.session i).connId =
      ⟨i, generationAfter (state.memory.session i).opens⟩ := by
    rw [← recorded.generation]
    rfl
  have earlier := recorded.past.eventsOf_unused (Nat.le_refl _)
    (show (state.memory.session i).opens < 2 ^ 32 by omega)
  rw [eventsOf_log, here, List.flatten_cons, eventsOf_append]
  change eventsOf _ ((state.memory.session i).past).flatten ++ _ = _
  rw [show eventsOf ⟨i, generationAfter (state.memory.session i).opens⟩
    (state.memory.session i).past.flatten = [] from earlier, List.nil_append]
  exact recorded.block.eventsOf_self

/-- All events with one id have been told by one connection. -/
theorem eventsOf_word (conn : ConnId) :
    ((eventsOf conn state.memory.rx.log).map TcpEvent.type = [] ∨
      EventPattern ((eventsOf conn state.memory.rx.log).map TcpEvent.type)) ∧
    ∃ identity : TcpConnection.Identity, ∀ event ∈ eventsOf conn state.memory.rx.log,
      Owns conn.slot identity event := by
  have blocks := (EventHistory.reachable reachable conn.slot).blocks
  have few := sparse.session_opens conn.slot
  rw [eventsOf_log]
  rcases blocks.eventsOf_flatten (by rw [List.length_cons]; rw [Session.opens] at few; omega)
    conn.generation with none | ⟨block, _, told, same⟩
  · rw [show eventsOf conn _ = [] from none]
    exact ⟨Or.inl rfl, (state.memory.rx.slots conn.slot).identity, by rintro _ ⟨⟩⟩
  · obtain ⟨identity, _, owned⟩ := told.owned
    rw [show eventsOf conn _ = events block from same]
    exact ⟨told.word, identity, owned⟩

/-- No id is given out twice. -/
theorem names_nodup : (tuple.names state.memory.rx.log).Nodup := by
  rw [List.nodup_iff_count_le_one]
  intro conn
  have single : ((eventsOf conn state.memory.rx.log).map TcpEvent.type).count .accepted ≤ 1 := by
    rcases (eventsOf_word reachable sparse conn).1 with none | word
    · rw [none]
      exact Nat.zero_le 1
    · rw [word.count_accepted]
  rw [Tuple.count_names]
  refine Nat.le_trans ?_ single
  rw [List.count, List.countP_map, ← List.countP_eq_length_filter]
  refine List.countP_mono_left fun event _ accepts => ?_
  exact (Bool.and_eq_true_iff.mp accepts).1

/-- A slot that still has the generation of an id holds the connection with that id. -/
theorem names_current {conn : ConnId} (given : conn ∈ tuple.names state.memory.rx.log)
    (generation : (state.memory.rx.slots conn.slot).generation = conn.generation) :
    tuple.ofConnection (state.memory.rx.slots conn.slot) = true ∧
      events (state.memory.session conn.slot).history ≠ [] := by
  have here : (state.memory.session conn.slot).connId = conn := by
    cases conn
    exact congrArg _ generation
  obtain ⟨event, member, accepts⟩ := Tuple.mem_names.mp given
  rw [← here, eventsOf_connId reachable sparse] at member
  refine ⟨?_, List.ne_nil_of_mem member⟩
  have owned := (EventHistory.reachable reachable conn.slot).invariant.owned event member
  have same : tuple.ofEvent event = tuple.ofConnection (state.memory.rx.slots conn.slot) :=
    Tuple.ofEvent_of_owns owned
  exact same.symm.trans (Bool.and_eq_true_iff.mp accepts).2

/-- An accepted connection has its id among those of its tuple. -/
theorem connId_mem_names_iff {i : Nat} :
    (state.memory.session i).connId ∈ tuple.names state.memory.rx.log ↔
      events (state.memory.session i).history ≠ [] ∧
        tuple.ofConnection (state.memory.rx.slots i) = true := by
  constructor
  · intro given
    obtain ⟨ofConnection, told⟩ := names_current reachable sparse given rfl
    exact ⟨told, ofConnection⟩
  · rintro ⟨told, ofConnection⟩
    have invariant := (EventHistory.reachable reachable i).invariant
    have types : (events (state.memory.session i).history).map TcpEvent.type ≠ [] := by
      simpa using told
    obtain ⟨count, half, _, last, _, word⟩ := invariant.told.word.resolve_left types
    have first : TcpEventType.accepted ∈
        (events (state.memory.session i).history).map TcpEvent.type := by
      rw [word]
      exact List.mem_cons_self
    obtain ⟨event, member, accepted⟩ := List.mem_map.mp first
    refine Tuple.mem_names.mpr ⟨event, ?_, ?_⟩
    · rw [eventsOf_connId reachable sparse]
      exact member
    · rw [Tuple.accepts, accepted, Tuple.ofEvent_of_owns (invariant.owned event member)]
      exact ofConnection

/-- The id that the next connection in a slot gets is a new one. -/
theorem nextGeneration_fresh {conn : ConnId} (given : conn ∈ tuple.names state.memory.rx.log) :
    nextGeneration (state.memory.rx.slots conn.slot).generation ≠ conn.generation := by
  obtain ⟨slot, generation⟩ := conn
  have recorded := EventHistory.reachable reachable slot
  have few := sparse.session_opens slot
  have current : (state.memory.rx.slots slot).generation =
      generationAfter (state.memory.session slot).opens := recorded.generation
  have unused := recorded.blocks.eventsOf_unused (Nat.le_refl _)
    (show (state.memory.session slot).past.length + 1 < 2 ^ 32 by
      rw [Session.opens] at few
      omega)
  obtain ⟨event, member, _⟩ := Tuple.mem_names.mp given
  intro same
  dsimp only at same
  rw [current, ← generationAfter_succ] at same
  rw [← same, eventsOf_log] at member
  exact absurd (unused ▸ member) List.not_mem_nil

end

end DpdkWrapper.Tcp
