import DpdkWrapper.Tcp.ClientPolls

/-!
# Packets and clients

A packet that is a segment concerns the client that it comes from.  If the client has a
connection the segment is served by it, and all that is added to the log is about that
connection; otherwise it opens a connection or is refused.  No other client is touched.

The new entries of the log are the bridge: they are all about one slot, and the slot's history
tells which of them the client hears of and under which number.  What a segment does to its
connection does not depend on the slot, by `SessionErasure`.
-/

namespace DpdkWrapper.Tcp

open Threads Wire

/-! ## Replies -/

namespace Tuple

variable {k : TcpStack} {tuple : Tuple} {seg : Segment} {pool : Bool} {segment : TxSegment}

theorem ofReply_of_rstFor (built : rstFor k seg pool = some segment) :
    tuple.ofReply segment = tuple.ofSegment seg := by
  obtain ⟨dstIp, dstPort, srcPort⟩ := rstFor_towards built
  rw [ofReply, ofSegment, dstIp, dstPort, srcPort]

theorem ofReply_of_refusal (built : refusal k seg pool = some segment) :
    tuple.ofReply segment = tuple.ofSegment seg := by
  unfold refusal at built
  split at built
  · cases built
  · exact ofReply_of_rstFor built

theorem ofReply_of_synAck {c : TcpConnection} (built : synAck k c pool = some segment) :
    tuple.ofReply segment = tuple.ofConnection c :=
  ofReply_of_replyAddr (synAck_stamps built).1

/-- A connection replies to the client that the segment comes from. -/
theorem ofReply_of_reply {session : Session} (named : session.Matches seg)
    (built : session.reply k seg pool = some segment) :
    tuple.ofReply segment = tuple.ofSegment seg := by
  unfold Session.reply at built
  split at built
  · split at built
    · cases built
    · split at built
      · split at built
        · exact (ofReply_of_synAck built).trans (ofConnection_of_matches named)
        · cases built
      · split at built
        · exact ofReply_of_rstFor built
        · cases built
  · cases built

variable {control : List Packet}

/-- A reply is queued for the client that it goes to. -/
theorem repliesIn_queued {reply : Option TxSegment} {own : Bool}
    (room : control.length < maxControl)
    (addressed : ∀ segment, reply = some segment → tuple.ofReply segment = own) :
    tuple.repliesIn (queued control (reply.map .tcp)) =
      tuple.repliesIn control ++ if own then reply.toList else [] := by
  have single : (reply.map Packet.tcp).toList = reply.toList.map .tcp := by
    cases reply <;> rfl
  rw [queued_of_room room, repliesIn_append, single, repliesIn_tcp]
  exact fun segment member => addressed segment (Option.mem_toList.mp member)

theorem repliesIn_queued_arp {reply : Option ArpFrame} (room : control.length < maxControl) :
    tuple.repliesIn (queued control (reply.map .arp)) = tuple.repliesIn control := by
  rw [queued_of_room room, repliesIn_append]
  cases reply <;> exact List.append_nil _

end Tuple

/-- A packet that only answers is seen in the control queue only. -/
theorem Answers.client {reply : Option Packet} {mem mem' : Memory}
    (answers : Answers reply mem mem') (tuple : Tuple) :
    mem'.client tuple = { mem.client tuple with
      control := tuple.repliesIn (queued mem.rx.control reply) } := by
  have link : mem'.link = mem.link := by
    funext i
    rw [Memory.link, Memory.link, answers.slots, answers.tx]
  have status : mem'.status = mem.status := by
    funext conn
    rw [Memory.status, Memory.status, answers.slots, answers.tx, answers.awaitingRelease]
  rw [Memory.client, Memory.slotOf, link, status, answers.flows, answers.log, answers.control,
    answers.tx]
  rfl

/-- If one slot changes and is no connection of the client before or after, the client
does not see it. -/
theorem slotOf_link_congr {k : TcpStack} {tuple : Tuple} {mem mem' : Memory} {idx : Nat}
    (accounts : Accounting k mem.rx) (accounts' : Accounting k mem'.rx)
    (kept : ∀ i, i ≠ idx → SameSlot mem mem' i)
    (pending : ∀ i, i ≠ idx → (mem'.rx.slots i).ackPending = (mem.rx.slots i).ackPending)
    (elsewhere : ¬IsSlotOf k tuple mem idx) (elsewhere' : ¬IsSlotOf k tuple mem' idx) :
    (mem'.slotOf tuple).map mem'.link = (mem.slotOf tuple).map mem.link := by
  have slotOf : mem'.slotOf tuple = mem.slotOf tuple := by
    refine slotOf_congr accounts accounts' fun i => ?_
    by_cases here : i = idx
    · subst here
      exact iff_of_false elsewhere' elsewhere
    · exact (kept i here).isSlot_iff
  rw [slotOf]
  refine Option.map_congr fun i found => ?_
  have differs : i ≠ idx := by
    rintro rfl
    exact elsewhere ((slotOf_eq_some accounts).mp found)
  exact (kept i differs).link (pending i differs)

/-! ## Histories -/

theorem unopened_of_past {slot : Nat} {added log : List RxEntry}
    (same : past slot (added ++ log) = past slot log) : RxEntry.opened slot ∉ added := by
  have count := congrArg List.length same
  rw [length_past, length_past, opens, opens, List.count_append] at count
  exact List.count_eq_zero.mp (by omega)

/-- Without a reopening, new entries about the slot add to its history. -/
theorem history_append {slot : Nat} {added : List RxEntry}
    (unopened : RxEntry.opened slot ∉ added) (log : List RxEntry) :
    history slot (added ++ log) = added.filter (RxEntry.concerns slot) ++ history slot log := by
  induction added with
  | nil => rfl
  | cons entry rest ih =>
      have earlier := ih fun member => unopened (List.mem_cons_of_mem _ member)
      rw [List.cons_append]
      cases concerned : entry.concerns slot with
      | true =>
          rw [history_cons_of_concerns concerned, earlier, List.filter_cons_of_pos concerned,
            List.cons_append]
      | false =>
          have other : entry ≠ .opened slot := by
            rintro rfl
            exact unopened List.mem_cons_self
          rw [history_cons_of_not_concerns other concerned, earlier,
            List.filter_cons_of_neg (by simp [concerned])]

theorem mem_events {event : TcpEvent} {log : List RxEntry} :
    event ∈ events log ↔ RxEntry.event event ∈ log := by
  rw [events, List.mem_filterMap]
  constructor
  · rintro ⟨entry, member, pushed⟩
    cases entry with
    | event other =>
        cases pushed
        exact List.mem_reverse.mp member
    | _ => cases pushed
  · exact fun member => ⟨_, List.mem_reverse.mpr member, rfl⟩

/-- Nothing is lost if only entries about one slot are kept. -/
theorem events_filter_concerns {slot : Nat} {added : List RxEntry}
    (about : ∀ event ∈ events added, event.conn.slot = slot) :
    events (added.filter (RxEntry.concerns slot)) = events added := by
  rw [events, ← List.filter_reverse, List.filterMap_filter, events]
  refine List.filterMap_congr fun entry member => ?_
  cases entry with
  | event pushed =>
      have here := about pushed (mem_events.mpr (List.mem_reverse.mp member))
      exact if_pos (beq_iff_eq.mpr here)
  | _ => split <;> rfl

theorem saidIn_eq (log : List RxEntry) :
    saidIn log = ((events log).map fun event => (event.type, event.data)).reverse := by
  rw [events, List.map_filterMap, List.filterMap_reverse, List.reverse_reverse, saidIn]
  refine List.filterMap_congr fun entry _ => ?_
  cases entry <;> rfl

/-! ## What a client hears -/

/-- New entries tell of one connection of the client, and of its beginning first. -/
structure ClientEntries (tuple : Tuple) (conn : ConnId) (log added : List RxEntry) : Prop where
  own : ∀ event ∈ events added, tuple.ofEvent event = true ∧ event.conn = conn
  opening : ∀ event, (events added).head? = some event →
    conn ∈ tuple.names log ∨ event.type = .accepted

namespace ClientEntries

variable {tuple : Tuple} {conn : ConnId} {log added : List RxEntry}

/-- The entries before the newest one, so that proofs go by induction over the new entries. -/
theorem tail {entry : RxEntry} (heard : ClientEntries tuple conn log (entry :: added)) :
    ClientEntries tuple conn log added where
  own event member := heard.own event (by
    rw [events_cons]
    exact List.mem_append_left _ member)
  opening event first := heard.opening event (by
    rw [events_cons, List.head?_append, first]
    rfl)

/-- An `accepted` event gives out the id. -/
theorem names (heard : ClientEntries tuple conn log added) :
    tuple.names added =
      List.replicate (((events added).map TcpEvent.type).count .accepted) conn := by
  rw [Tuple.names, List.eq_replicate_iff]
  constructor
  · rw [List.length_map, ← List.countP_eq_length_filter, List.count, List.countP_map]
    refine List.countP_congr fun event member => ?_
    rw [Tuple.accepts, (heard.own event member).1, Bool.and_true]
    rfl
  · intro other member
    obtain ⟨event, kept, rfl⟩ := List.mem_map.mp member
    exact (heard.own event (List.mem_filter.mp kept).1).2

/-- A connection that the client has been told about is among its names. -/
theorem mem_names (heard : ClientEntries tuple conn log added) (told : events added ≠ []) :
    conn ∈ tuple.names (added ++ log) := by
  obtain ⟨first, rest, list⟩ := List.exists_cons_of_ne_nil told
  have member : first ∈ events added := by
    rw [list]
    exact List.mem_cons_self
  obtain ⟨own, same⟩ := heard.own first member
  rw [Tuple.names_append]
  rcases heard.opening first (by rw [list]; rfl) with known | accepted
  · exact List.mem_append_left _ known
  · have accepts : tuple.accepts first = true := by
      rw [Tuple.accepts, accepted, own]
      rfl
    exact List.mem_append_right _
      (List.mem_map.mpr ⟨first, List.mem_filter.mpr ⟨member, accepts⟩, same⟩)

/-- All that is heard carries the number of the connection. -/
theorem notices (heard : ClientEntries tuple conn log added) :
    tuple.notices (added ++ log) =
      (saidIn added).map (fun said =>
        ⟨said.1, (tuple.names (added ++ log)).idxOf conn, said.2⟩) ++ tuple.notices log := by
  induction added with
  | nil => rfl
  | cons entry rest ih =>
      have names : tuple.names (entry :: rest ++ log) =
          tuple.names (rest ++ log) ++ tuple.names [entry] := Tuple.names_append [entry] _
      -- the id is known when something is told, so that later ids do not move it
      have same : (saidIn rest).map (fun said => (⟨said.1,
            (tuple.names (rest ++ log)).idxOf conn, said.2⟩ : ClientEvent)) =
          (saidIn rest).map fun said => ⟨said.1,
            (tuple.names (entry :: rest ++ log)).idxOf conn, said.2⟩ := by
        refine List.map_congr_left fun said member => ?_
        have told : events rest ≠ [] := by
          intro none
          rw [saidIn_eq, none] at member
          cases member
        rw [names, List.idxOf_append_of_mem (heard.tail.mem_names told)]
      have earlier := ih heard.tail
      rw [same] at earlier
      cases entry with
      | event pushed =>
          obtain ⟨own, here⟩ := heard.own pushed (by simp [RxEntry.pushed?])
          rw [List.cons_append, Tuple.notices, if_pos own, here, earlier]
          rfl
      | _ => exact earlier

end ClientEntries

/-! ## Segments for a connection -/

/-- What `process_segment` does to the memory. -/
structure Handles (k : TcpStack) (idx : Nat) (seg : Segment) (pool : Bool) (added : List RxEntry)
    (mem mem' : Memory) : Prop where
  turns : ChangesSlot idx mem ((mem.session idx).processSegment k seg) mem'
  serves : Serves idx seg.payload ((mem.session idx).owes seg)
    ((mem.session idx).cancels k seg) ((mem.session idx).reply k seg pool) mem.rx
    mem'.rx
  awaiting : mem'.rx.awaitingRelease = mem.rx.awaitingRelease
  emitted : emitted mem'.rx.log = emitted mem.rx.log
  log : mem'.rx.log = added ++ mem.rx.log

namespace Handles

variable {k : TcpStack} {tuple : Tuple} {idx : Nat} {seg : Segment} {pool : Bool}
  {added : List RxEntry} {mem mem' : Memory} {phase phase' : Phase}
  (handles : Handles k idx seg pool added mem mem')
include handles

/-- A segment for a connection reopens no slot. -/
theorem unopened (i : Nat) : RxEntry.opened i ∉ added := by
  have same : past i (added ++ mem.rx.log) = past i mem.rx.log := by
    rw [← handles.log]
    by_cases here : i = idx
    · subst here
      have continues := (mem.session i).processSegment_continues seg k
      exact (congrArg Session.past handles.turns.here).trans continues.past
    · exact congrArg Session.past (handles.turns.others i here)
  exact unopened_of_past same

/-- What is added is about the connection. -/
theorem about : ∀ event ∈ events added, event.conn.slot = idx := by
  intro event member
  by_contra other
  have same : history event.conn.slot mem'.rx.log = history event.conn.slot mem.rx.log :=
    congrArg Session.history (handles.turns.others _ other)
  rw [handles.log, history_append (handles.unopened _)] at same
  have none := List.append_left_eq_self.mp same
  exact List.filter_eq_nil_iff.mp none _ (mem_events.mp member) (beq_self_eq_true _)

theorem history : ((mem.session idx).processSegment k seg).history =
    added.filter (RxEntry.concerns idx) ++ (mem.session idx).history := by
  rw [← handles.turns.here]
  change Tcp.history idx mem'.rx.log = _
  rw [handles.log]
  exact history_append (handles.unopened idx) _

theorem events : events (mem'.session idx).history =
    events (mem.session idx).history ++ events added := by
  rw [handles.turns.here, handles.history, events_append, events_filter_concerns handles.about]

/-- The connection on its own says the same. -/
theorem said : saidIn ((mem.link idx).session.processSegment k seg).history = saidIn added := by
  have erases := ((ErasesTo.link mem idx).processSegment k seg).said
  have split : saidIn ((mem.session idx).processSegment k seg).history =
      saidIn added ++ saidIn (mem.session idx).history := by
    rw [handles.history, saidIn, List.filterMap_append]
    congr 1
    change saidIn _ = _
    rw [saidIn_eq, events_filter_concerns handles.about, ← saidIn_eq]
  exact List.append_cancel_right (erases.symm.trans split)

theorem kept {i : Nat} (other : i ≠ idx) : SameSlot mem mem' i :=
  .of_session (handles.turns.others i other) (by rw [handles.awaiting])

theorem identity : (mem'.rx.slots idx).identity = (mem.rx.slots idx).identity := by
  have same := ((mem.session idx).processSegment_continues seg k).identity
  rw [← handles.turns.here] at same
  exact same

theorem generation : (mem'.rx.slots idx).generation = (mem.rx.slots idx).generation :=
  congrArg TcpConnection.Identity.generation handles.identity

theorem ofConnection :
    tuple.ofConnection (mem'.rx.slots idx) = tuple.ofConnection (mem.rx.slots idx) := by
  have same := congrArg (fun identity : TcpConnection.Identity =>
    tuple.is identity.peerIp identity.peerPort identity.localPort) handles.identity
  exact same

theorem state : (mem'.rx.slots idx).state = ((mem.link idx).after k seg).conn.state := by
  rw [ClientConn.after, ((ErasesTo.link mem idx).processSegment k seg).state,
    ← handles.turns.here]
  rfl

/-- The client's connection moves as `ClientConn.after` computes from that connection alone. -/
theorem link : mem'.link idx = (mem.link idx).after k seg := by
  have erases := ErasesTo.link mem idx
  have conn : (mem'.rx.slots idx).bare =
      ((mem.link idx).session.processSegment k seg).conn := by
    rw [(erases.processSegment k seg).conn, ← handles.turns.here]
    rfl
  rw [Memory.link, ClientConn.after, conn, handles.turns.tx, handles.serves.pending, erases.owes,
    erases.cancels]
  rfl

theorem accepted (accepted : (mem.rx.slots idx).state.accepted = true) :
    (mem'.rx.slots idx).state.accepted = true := by
  have live : (mem.session idx).conn.state ≠ .free := (TcpState.accepted_iff.mp accepted).1
  have still := (Owes.processSegment k seg live).accepted accepted
  rw [← handles.turns.here] at still
  exact still

variable (reachable : Reachable k ⟨phase, mem⟩) (sparse : FewOpensEach mem)
  (live : (mem.rx.slots idx).state ≠ .free)
include reachable

include sparse live in
/-- Ids lead where they led before. -/
theorem status {conn : ConnId} (given : conn ∈ tuple.names mem.rx.log) :
    mem'.status conn = mem.status conn := by
  by_cases here : conn.slot = idx
  case neg => exact (handles.kept here).status
  subst here
  by_cases current : (mem.rx.slots conn.slot).generation = conn.generation
  case neg =>
    rw [status_of_stale current, status_of_stale (by rwa [handles.generation])]
  have told := (names_current reachable sparse given current).2
  have early : (mem.rx.slots conn.slot).state ≠ .synReceived := by
    intro early
    have standing := (SessionInvariant.reachable reachable conn.slot).standing
    have silent := (standing.unaccepted early).2
    exact told (congrArg Tcp.events silent)
  have live' : (mem'.rx.slots conn.slot).state ≠ .free :=
    (TcpState.accepted_iff.mp
      (handles.accepted (TcpState.accepted_iff.mpr ⟨live, early⟩))).1
  have before := And.intro current live
  have after := And.intro (handles.generation.trans current) live'
  simp only [Memory.status, if_pos before, if_pos after, handles.awaiting, handles.turns.tx]

include live in
/-- A connection that is told of is not given up. -/
theorem live_of_told (told : Tcp.events added ≠ []) : (mem'.rx.slots idx).state ≠ .free := by
  intro free
  have freed : ((mem.session idx).processSegment k seg).conn.state = .free := by
    rw [← handles.turns.here]
    exact free
  have standing := (SessionInvariant.reachable reachable idx).standing
  have silent := Session.processSegment_free seg k standing live freed
  have all := handles.events
  rw [handles.turns.here, silent, events_nil] at all
  exact told (List.append_eq_nil_iff.mp all.symm).2

variable (reachable' : Reachable k ⟨phase', mem'⟩)
include reachable'

omit reachable in
/-- What is told belongs to the connection. -/
theorem owned : ∀ event ∈ Tcp.events added, event.conn = (mem.session idx).connId ∧
    tuple.ofEvent event = tuple.ofConnection (mem.rx.slots idx) := by
  intro event member
  have later : event ∈ Tcp.events (mem'.session idx).history := by
    rw [handles.events]
    exact List.mem_append_right _ member
  have owned := (EventHistory.reachable reachable' idx).invariant.owned event later
  have ofEvent : tuple.ofEvent event = tuple.ofConnection (mem'.rx.slots idx) :=
    Tuple.ofEvent_of_owns owned
  have conn : event.conn = ⟨idx, (mem'.rx.slots idx).generation⟩ := owned.conn
  exact ⟨conn.trans (congrArg (ConnId.mk idx) handles.generation),
    ofEvent.trans handles.ofConnection⟩

include sparse in
/-- A connection of the client is heard of. -/
theorem heard (named : tuple.ofConnection (mem.rx.slots idx) = true) :
    ClientEntries tuple (mem.session idx).connId mem.rx.log added where
  own event member := by
    obtain ⟨conn, ofEvent⟩ := handles.owned reachable' event member
    exact ⟨ofEvent.trans named, conn⟩
  opening event first := by
    by_cases told : Tcp.events (mem.session idx).history = []
    · have all := handles.events
      rw [told, List.nil_append] at all
      have word := (EventHistory.reachable reachable' idx).invariant.told.word
      rw [all] at word
      rcases word with none | ⟨count, half, _, last, _, word⟩
      · rw [List.map_eq_nil_iff.mp none] at first
        cases first
      · have head := congrArg List.head? word
        rw [List.head?_map, first] at head
        exact Or.inr (Option.some.inj head)
    · exact Or.inl ((connId_mem_names_iff reachable sparse).mpr ⟨told, named⟩)

include live in
/-- The application is told of a connection when it becomes accepted. -/
theorem count_accepted :
    ((Tcp.events added).map TcpEvent.type).count .accepted =
      if !(mem.rx.slots idx).state.accepted && (mem'.rx.slots idx).state.accepted then 1
      else 0 := by
  have told : EventsAt ((Tcp.events (mem.session idx).history).map TcpEvent.type)
      (mem.rx.slots idx).state := (EventHistory.reachable reachable idx).invariant.told
  have told' : EventsAt ((Tcp.events (mem'.session idx).history).map TcpEvent.type)
      (mem'.rx.slots idx).state := (EventHistory.reachable reachable' idx).invariant.told
  have single {types : List TcpEventType} {state : TcpState} (told : EventsAt types state)
      (accepted : state.accepted = true) : types.count .accepted = 1 := by
    refine (told.word.resolve_left ?_).count_accepted
    rintro rfl
    obtain ⟨unfree, late⟩ := TcpState.accepted_iff.mp accepted
    exact late (told.of_nil unfree)
  cases accepted : (mem.rx.slots idx).state.accepted with
  | true =>
      have before := single told accepted
      have after := single told' (handles.accepted accepted)
      rw [handles.events, List.map_append, List.count_append] at after
      exact Nat.add_left_cancel (n := 1) (before ▸ after)
  | false =>
      have early : (mem.rx.slots idx).state = .synReceived := by
        by_contra late
        rw [TcpState.accepted_iff.mpr ⟨live, late⟩] at accepted
        cases accepted
      have standing := (SessionInvariant.reachable reachable idx).standing
      have silent := (standing.unaccepted early).2
      have all := handles.events
      rw [silent, events_nil, List.nil_append] at all
      rw [all] at told'
      rw [Bool.not_false, Bool.true_and]
      cases accepted' : (mem'.rx.slots idx).state.accepted with
      | true => exact single told' accepted'
      | false =>
          have none : Tcp.events added = [] := by
            by_contra heard
            have live' := handles.live_of_told reachable live heard
            have early' : (mem'.rx.slots idx).state = .synReceived := by
              by_contra late
              rw [TcpState.accepted_iff.mpr ⟨live', late⟩] at accepted'
              cases accepted'
            rw [early'] at told'
            exact heard (List.map_eq_nil_iff.mp told')
          rw [none]
          rfl

omit reachable reachable' in
theorem isSlot (isSlot : IsSlotOf k tuple mem idx)
    (live : (mem'.rx.slots idx).state ≠ .free) : IsSlotOf k tuple mem' idx where
  inside := isSlot.inside
  live := live
  unawaited := by
    rw [handles.awaiting]
    exact isSlot.unawaited
  named := by
    rw [handles.ofConnection]
    exact isSlot.named

/-- A segment for a connection of another client. -/
theorem client_foreign (sparse : FewOpensEach mem) (live : (mem.rx.slots idx).state ≠ .free)
    (room : mem.rx.control.length < maxControl) (named : (mem.session idx).Matches seg)
    (other : tuple.ofSegment seg = false) : mem'.client tuple = mem.client tuple := by
  have accounts : Accounting k mem.rx := reachable.inOrder.accounts
  have accounts' : Accounting k mem'.rx := reachable'.inOrder.accounts
  have unnamed : tuple.ofConnection (mem.rx.slots idx) = false :=
    (Tuple.ofConnection_of_matches named).trans other
  have foreign : ∀ event ∈ Tcp.events added, tuple.ofEvent event = false :=
    fun event member => (handles.owned reachable' event member).2.trans unnamed
  have elsewhere : ¬IsSlotOf k tuple mem idx := by
    intro isSlot
    rw [isSlot.named] at unnamed
    cases unnamed
  have elsewhere' : ¬IsSlotOf k tuple mem' idx := by
    intro isSlot
    rw [handles.ofConnection.symm.trans isSlot.named] at unnamed
    cases unnamed
  have link : (mem'.slotOf tuple).map mem'.link =
      (mem.slotOf tuple).map mem.link :=
    slotOf_link_congr accounts accounts' (fun _ other => handles.kept other)
      handles.serves.others elsewhere elsewhere'
  have names : tuple.names mem'.rx.log = tuple.names mem.rx.log := by
    rw [handles.log, Tuple.names_of_foreign foreign]
  have notices : tuple.notices mem'.rx.log = tuple.notices mem.rx.log := by
    rw [handles.log, Tuple.notices_of_foreign foreign]
  have statuses : (tuple.names mem.rx.log).map mem'.status =
      (tuple.names mem.rx.log).map mem.status :=
    List.map_congr_left fun conn given => handles.status reachable sparse live given
  have control : tuple.repliesIn mem'.rx.control = tuple.repliesIn mem.rx.control := by
    rw [handles.serves.control, Tuple.repliesIn_queued room fun segment built =>
      (Tuple.ofReply_of_reply named built).trans other]
    exact List.append_nil _
  rw [Memory.client, link, names, statuses, control, notices, handles.emitted, handles.turns.tx]
  rfl

/-- The number that the client's events carry is that of the connection its packets
go to. -/
theorem idxOf_connId (sparse' : FewOpensEach mem')
    (isSlot : IsSlotOf k tuple mem idx) (told : Tcp.events added ≠ []) :
    (tuple.names mem'.rx.log).idxOf (mem.session idx).connId =
      ((tuple.names mem'.rx.log).map mem'.status).idxOf .present := by
  have accounts' : Accounting k mem'.rx := reachable'.inOrder.accounts
  have live' := handles.live_of_told reachable isSlot.live told
  have here := handles.isSlot isSlot live'
  have present : mem'.status (mem.session idx).connId = .present :=
    status_of_present handles.generation live' here.unawaited
  rw [← present]
  refine (idxOf_map_of_unique fun other given same => ?_).symm
  obtain ⟨current, live, unlisted⟩ := status_eq_present_iff.mp (same.trans present)
  have there := isSlot_of_names reachable' sparse' given current live unlisted
  have slot : other.slot = (mem.session idx).connId.slot := there.unique here accounts'
  exact eq_of_slot slot handles.generation current

/-- A segment for the client's connection. -/
theorem client_own (sparse : FewOpensEach mem) (sparse' : FewOpensEach mem')
    (room : mem.rx.control.length < maxControl) (named : (mem.session idx).Matches seg)
    (own : tuple.ofSegment seg = true) (isSlot : IsSlotOf k tuple mem idx) :
    mem'.client tuple = (mem.client tuple).serve k (mem.link idx) seg pool := by
  have accounts' : Accounting k mem'.rx := reachable'.inOrder.accounts
  have heard := handles.heard reachable sparse reachable' isSlot.named
  have state := handles.state
  have link : (mem'.slotOf tuple).map mem'.link =
      if ((mem.link idx).after k seg).conn.state = .free then none
      else some ((mem.link idx).after k seg) := by
    rw [← state]
    split
    · rename_i free
      rw [(slotOf_eq_none accounts').mpr]
      · rfl
      · intro i isSlot'
        by_cases here : i = idx
        · subst here
          exact isSlot'.live free
        · have before := (handles.kept here).isSlot_iff.mp isSlot'
          exact here (before.unique isSlot reachable.inOrder.accounts)
    · rename_i live
      rw [(slotOf_eq_some accounts').mpr (handles.isSlot isSlot live), Option.map_some,
        handles.link]
  have statuses : (tuple.names mem'.rx.log).map mem'.status =
      (mem.client tuple).statuses ++
        if !(mem.link idx).conn.state.accepted &&
          ((mem.link idx).after k seg).conn.state.accepted then [.present] else [] := by
    rw [handles.log, Tuple.names_append, heard.names, List.map_append, ← state,
      handles.count_accepted reachable isSlot.live reachable']
    congr 1
    · exact List.map_congr_left fun conn given => handles.status reachable sparse isSlot.live given
    · change List.map _ (List.replicate (if _ then 1 else 0) _) =
        if !(mem.rx.slots idx).state.accepted && _ then _ else _
      split
      · rename_i accepted
        have live := (TcpState.accepted_iff.mp (Bool.and_eq_true_iff.mp accepted).2).1
        have here := handles.isSlot isSlot live
        exact congrArg (fun status => [status])
          (status_of_present handles.generation live here.unawaited)
      · rfl
  have notices : tuple.notices mem'.rx.log =
      (saidIn ((mem.link idx).session.processSegment k seg).history).map (fun said =>
        ⟨said.1, ((tuple.names mem'.rx.log).map mem'.status).idxOf .present, said.2⟩) ++
        tuple.notices mem.rx.log := by
    have all := heard.notices
    rw [← handles.log] at all
    rw [all, handles.said]
    congr 1
    refine List.map_congr_left fun said member => ?_
    have told : Tcp.events added ≠ [] := by
      intro none
      rw [saidIn_eq, none] at member
      cases member
    rw [handles.idxOf_connId reachable reachable' sparse' isSlot told]
  have control : tuple.repliesIn mem'.rx.control =
      tuple.repliesIn mem.rx.control ++
        ((mem.link idx).session.reply k seg pool).toList := by
    rw [handles.serves.control, Tuple.repliesIn_queued room fun segment built =>
      (Tuple.ofReply_of_reply named built).trans own, (ErasesTo.link mem idx).reply]
    rfl
  rw [Memory.client, link, notices, statuses, control, handles.emitted, handles.turns.tx]
  rfl

end Handles

/-! ## Segments without a connection -/

section

variable (k : TcpStack) (idx : Nat) (seg : Segment) (peerMss : BitVec 16) (rand : BitVec 64)
  (pool : Bool) (mem : Memory)

/-- `open` tells the application nothing and sends nothing. -/
theorem openSlot_noEvents :
    NoNewEvents mem ((openSlot k idx seg peerMss rand pool).run mem).2 ∧
      ∀ tuple : Tuple, tuple.sentIn ((openSlot k idx seg peerMss rand pool).run mem).2.tx.log =
        tuple.sentIn mem.tx.log := by
  rw [openSlot, run_viewRx_bind, run_inbound_bind, run_inbound_bind, publishWindow,
    run_inbound_bind, run_inbound_bind, run_storeSndNxt_bind, run_outbound_bind, run_inbound]
  dsimp only
  refine ⟨?_, fun _ => rfl⟩
  generalize opened : Receiver.updateSlot _ idx
    (fun c : TcpConnection => { c with terminated := false }) = rx'
  have before : rx'.log = .opened idx :: mem.rx.log := by
    rw [← opened]
    rfl
  have after : (sendSynAck k (rx'.insertFlow idx) (rx'.slots idx) pool).log =
      (rx'.insertFlow idx).log := by
    rw [sendSynAck]
    simp
  rcases (insertFlow_lists idx rx').2 with same | fault
  · exact ⟨[.opened idx], after.trans (same.trans before), rfl⟩
  · exact ⟨[.fault, .opened idx], after.trans (fault.trans (congrArg _ before)), rfl⟩

end

/-- What `open` does to the memory. -/
structure Sets (k : TcpStack) (idx : Nat) (seg : Segment) (peerMss : BitVec 16) (rand : BitVec 64)
    (pool : Bool) (mem mem' : Memory) : Prop where
  here : mem'.session idx = (mem.session idx).openFor k seg peerMss rand
  others : ∀ i, i ≠ idx → mem'.session i = mem.session i
  serves : Serves idx seg.payload false true
    (synAck k ((mem.session idx).openFor k seg peerMss rand).conn pool) mem.rx mem'.rx
  awaiting : mem'.rx.awaitingRelease = mem.rx.awaitingRelease
  emitted : emitted mem'.rx.log = emitted mem.rx.log
  noEvents : NoNewEvents mem mem'
  sent : ∀ tuple : Tuple, tuple.sentIn mem'.tx.log = tuple.sentIn mem.tx.log

namespace Sets

variable {k : TcpStack} {tuple : Tuple} {idx : Nat} {seg : Segment} {peerMss : BitVec 16}
  {rand : BitVec 64} {pool : Bool} {mem mem' : Memory} {phase phase' : Phase}
  (sets : Sets k idx seg peerMss rand pool mem mem')
include sets

/-- The other slots stay as they are. -/
theorem kept {i : Nat} (other : i ≠ idx) : SameSlot mem mem' i :=
  .of_session (sets.others i other) (by rw [sets.awaiting])

theorem state : (mem'.rx.slots idx).state = .synReceived :=
  congrArg (·.conn.state) sets.here

theorem ofConnection : tuple.ofConnection (mem'.rx.slots idx) = tuple.ofSegment seg := by
  have same := congrArg (fun session : Session => tuple.ofConnection session.conn) sets.here
  exact same

/-- What a SYN makes of a free slot does not depend on the slot. -/
theorem link : mem'.link idx = ClientConn.opened k seg peerMss rand := by
  have conn : (mem'.rx.slots idx).bare = (ClientConn.opened k seg peerMss rand).conn :=
    congrArg (fun session : Session => { session.conn with generation := 0 }) sets.here
  have out : mem'.tx.slots idx = ⟨rand.setWidth 32 + 1, 0⟩ := congrArg Session.out sets.here
  rw [Memory.link, conn, out, sets.serves.pending]
  rfl

/-- The SYN-ACK goes to the client of the SYN, and nobody else gets an answer. -/
theorem control (room : mem.rx.control.length < maxControl) :
    tuple.repliesIn mem'.rx.control = tuple.repliesIn mem.rx.control ++
      if tuple.ofSegment seg then (synAck k (ClientConn.opened k seg peerMss rand).conn pool).toList
      else [] := by
  have same : synAck k ((mem.session idx).openFor k seg peerMss rand).conn pool =
      synAck k (ClientConn.opened k seg peerMss rand).conn pool := rfl
  rw [sets.serves.control, same, Tuple.repliesIn_queued room]
  intro segment built
  rw [Tuple.ofReply_of_synAck built]
  rfl

variable (reachable : Reachable k ⟨phase, mem⟩) (sparse : FewOpensEach mem)
  (free : (mem.rx.slots idx).state = .free)
include reachable sparse free

/-- The new connection gets an id that is not in use. -/
theorem statuses : (tuple.names mem.rx.log).map mem'.status =
    (tuple.names mem.rx.log).map mem.status := by
  refine List.map_congr_left fun conn given => ?_
  by_cases here : conn.slot = idx
  · subst here
    have generation : (mem'.rx.slots conn.slot).generation =
        nextGeneration (mem.rx.slots conn.slot).generation :=
      congrArg (·.conn.generation) sets.here
    have stale : (mem'.rx.slots conn.slot).generation ≠ conn.generation := by
      rw [generation]
      exact nextGeneration_fresh reachable sparse given
    rw [status_of_stale stale, status_of_free free]
  · exact (sets.kept here).status

variable (reachable' : Reachable k ⟨phase', mem'⟩)
  (room : mem.rx.control.length < maxControl)
include reachable' room

/-- A connection is opened for another client. -/
theorem client_foreign (other : tuple.ofSegment seg = false) :
    mem'.client tuple = mem.client tuple := by
  have accounts : Accounting k mem.rx := reachable.inOrder.accounts
  have accounts' : Accounting k mem'.rx := reachable'.inOrder.accounts
  have elsewhere' : ¬IsSlotOf k tuple mem' idx := by
    intro isSlot
    have named := isSlot.named
    rw [sets.ofConnection, other] at named
    cases named
  have link : (mem'.slotOf tuple).map mem'.link =
      (mem.slotOf tuple).map mem.link :=
    slotOf_link_congr accounts accounts' (fun _ other => sets.kept other) sets.serves.others
      (fun isSlot => isSlot.live free) elsewhere'
  rw [Memory.client, link, sets.noEvents.names, sets.statuses reachable sparse free,
    sets.control room, sets.noEvents.notices, sets.emitted, sets.sent, other,
    if_neg Bool.false_ne_true, List.append_nil]
  rfl

/-- A connection is opened for the client. -/
theorem client_own (inside : idx < k.maxConnections) (own : tuple.ofSegment seg = true)
    (nowhere : ∀ i, ¬IsSlotOf k tuple mem i) (mss : parseMssOption seg.options = some peerMss) :
    mem'.client tuple = (mem.client tuple).segment k seg pool (some rand) := by
  have accounts : Accounting k mem.rx := reachable.inOrder.accounts
  have accounts' : Accounting k mem'.rx := reachable'.inOrder.accounts
  have isSlot : IsSlotOf k tuple mem' idx := by
    refine ⟨inside, ?_, ?_, sets.ofConnection.trans own⟩
    · rw [sets.state]
      rintro ⟨⟩
    · rw [sets.awaiting]
      intro listed
      have closed := (accounts.partitioned.awaiting idx listed).2.1
      rw [free] at closed
      cases closed
  rw [Client.segment, client_link_none accounts nowhere]
  unfold Client.request
  rw [mss, Memory.client, (slotOf_eq_some accounts').mpr isSlot, Option.map_some, sets.link,
    sets.noEvents.names, sets.statuses reachable sparse free, sets.control room,
      sets.noEvents.notices,
    sets.emitted, sets.sent, own, if_pos rfl]
  rfl

end Sets

section

variable {k : TcpStack} {tuple : Tuple} {mem : Memory} {seg : Segment}

/-- No slot is found for a tuple that is unknown. -/
theorem find_of_unknown (accounts : Accounting k mem.rx) (unknown : Unknown k mem seg) :
    mem.rx.flows.find (FlowTable.key seg.srcIp seg.srcPort seg.dstPort) =
      some FlowTable.npos := by
  have small : k.maxConnections ≤ FlowTable.npos :=
    Nat.le_trans (Nat.le_of_lt k.maxConnections_lt) (by decide)
  rcases accounts.flows.find small (FlowTable.key_ne_zero seg.srcIp_ne_zero seg.srcPort
    seg.dstPort) with ⟨idx, _, _, inside, inFlow, named⟩ | ⟨absent, _⟩
  · exact absurd ((matches_iff_key idx seg).mpr named) (unknown idx inside inFlow)
  · exact absent

theorem input_packet {packet : RxPacket}
    (decoded : decode k packet.frame packet.contiguous = some (.segment seg)) :
    (Action.task (.packet packet)).input? k tuple mem =
      if tuple.ofSegment seg then
        some (.segment seg packet.pool (if mem.opensFor k seg then some packet.rand else none))
      else
        none := by
  rw [Action.input?, decoded]

end

/-- What a packet is to a client. -/
theorem process_client {k : TcpStack} {tuple : Tuple} {mem : Memory} {count : Nat}
    (packet : RxPacket) (reachable : Reachable k ⟨.polling count, mem⟩) (more : count < maxBurst)
    (sparse : FewOpensEach mem) (sparse' : FewOpensEach ((process k packet).run mem).2) :
    ((process k packet).run mem).2.client tuple =
      (mem.client tuple).react k
        ((Action.task (.packet packet)).input? k tuple mem) := by
  have accounts : Accounting k mem.rx := reachable.inOrder.accounts
  have reachable' : Reachable k ⟨.polling (count + 1), ((process k packet).run mem).2⟩ :=
    Run.step reachable (.task (.packet packet) (if_pos more)) trivial
  have room : mem.rx.control.length < maxControl := by
    have replies : mem.rx.control.length + mem.rx.ackList.length ≤ count :=
      reachable.loaded.2.replies
    have burst : maxBurst ≤ maxControl := by decide
    omega
  have dispatch := process_dispatch accounts packet
  have emitted := emitted_process (k := k) packet mem
  generalize ((process k packet).run mem).2 = mem' at reachable' sparse' dispatch emitted ⊢
  have awaiting := dispatch.awaitingRelease
  cases dispatch with
  | other undecoded answers =>
      have none : (Action.task (.packet packet)).input? k tuple mem = none := by
        rw [Action.input?]
        split
        · rename_i seg decoded
          exact absurd decoded (undecoded seg)
        · rfl
      rw [none, answers.client, Tuple.repliesIn_queued_arp room]
      rfl
  | @refused seg _ decoded unknown unopened answers =>
      have shut : mem.opensFor k seg = false := by
        rw [Memory.opensFor]
        rcases unopened with unrequested | full
        · rw [unrequested, Bool.and_false, Bool.false_and]
        · rw [full, List.isEmpty_nil, Bool.not_true, Bool.and_false]
      rw [input_packet decoded, shut, answers.client,
        Tuple.repliesIn_queued room fun segment built => Tuple.ofReply_of_refusal built]
      cases own : tuple.ofSegment seg with
      | false =>
          rw [if_neg Bool.false_ne_true, List.append_nil]
          rfl
      | true =>
          have nowhere := not_isSlot_of_unknown accounts unknown own
          rw [if_pos rfl, if_pos rfl, Client.react, Client.step, Client.segment,
            client_link_none accounts nowhere]
          rfl
  | @opened seg idx rest peerMss decoded unknown requested free mss =>
      have listed : idx ∈ mem.rx.freeSlots := by
        rw [free]
        exact List.mem_cons_self
      obtain ⟨inside, unused⟩ := (accounts.partitioned.mem_freeSlots idx).mp listed
      have opens : mem.opensFor k seg = true := by
        rw [Memory.opensFor, find_of_unknown accounts unknown, requested, free]
        rfl
      have sessions := openSlot_sessions k idx seg peerMss packet.rand packet.pool mem
      obtain ⟨noEvents, sent⟩ := openSlot_noEvents k idx seg peerMss packet.rand packet.pool mem
      have sets : Sets k idx seg peerMss packet.rand packet.pool mem _ :=
        ⟨(sessions idx).trans (if_pos rfl), fun i other => (sessions i).trans (if_neg other),
          openSlot_serves k idx seg peerMss packet.rand packet.pool mem, awaiting, emitted,
          noEvents, sent⟩
      rw [input_packet decoded, opens, if_pos rfl]
      cases own : tuple.ofSegment seg with
      | false => exact sets.client_foreign reachable sparse unused reachable' room own
      | true =>
          exact sets.client_own reachable sparse unused reachable' room inside own
            (not_isSlot_of_unknown accounts unknown own) mss
  | @segment seg idx decoded inside inFlow named =>
      have serves := processSegment_serves k idx seg packet.pool mem
      obtain ⟨added, log, _⟩ := serves.told
      have handles : Handles k idx seg packet.pool added mem _ :=
        ⟨processSegment_turns idx seg mem k packet.pool, serves, awaiting, emitted, log⟩
      have live := ((inFlow_iff_live accounts inside).mp inFlow).1
      rw [input_packet decoded]
      cases own : tuple.ofSegment seg with
      | false => exact handles.client_foreign reachable reachable' sparse live room named own
      | true =>
          have isSlot := isSlot_of_matches accounts inside inFlow named own
          rw [if_pos rfl, Client.react, Client.step, Client.segment, client_link accounts isSlot]
          exact handles.client_own reachable reachable' sparse sparse' room named own isSlot

end DpdkWrapper.Tcp
