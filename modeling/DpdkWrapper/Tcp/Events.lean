import DpdkWrapper.Tcp.States

/-!
# The events of a connection

The events that carry the id of one connection form one word of
`accepted data* peer_closed? (closed | reset)?`.  The state of a connection says which
part of the word it has produced; a slot's connections produce one word after another,
each under its own generation.

`EventInvariant` is the invariant of the present connection and `EventHistory` that of all
connections of a slot.  Generations tell the words apart, as long as the slot has not been opened
so often that a generation comes again.  What has been told stays told, so the words only grow
over a run.
-/

namespace DpdkWrapper.Tcp

open Wire

/-! ## The events of a log -/

/-- The event that an entry records. -/
def RxEntry.pushed? : RxEntry → Option TcpEvent
  | .event pushed => some pushed
  | _ => none

theorem RxEntry.eq_of_pushed? {entry : RxEntry} {event : TcpEvent}
    (pushed : entry.pushed? = some event) : entry = .event event := by
  cases entry with
  | event same =>
      cases pushed
      rfl
  | _ => cases pushed

/-- The events of a log, oldest first. -/
def events (log : List RxEntry) : List TcpEvent :=
  log.reverse.filterMap RxEntry.pushed?

/-- The events of a log that carry an id, oldest first. -/
def eventsOf (conn : ConnId) (log : List RxEntry) : List TcpEvent :=
  (events log).filter fun event => event.conn = conn

@[simp]
theorem events_nil : events [] = [] := rfl

@[simp]
theorem events_cons (entry : RxEntry) (log : List RxEntry) :
    events (entry :: log) = events log ++ entry.pushed?.toList := by
  cases pushed : entry.pushed? <;> simp [events, pushed]

/-- The log has the newest entry first, and events are listed oldest first. -/
theorem events_append (later earlier : List RxEntry) :
    events (later ++ earlier) = events earlier ++ events later := by
  simp [events]

@[simp]
theorem eventsOf_nil (conn : ConnId) : eventsOf conn [] = [] := rfl

theorem eventsOf_append (conn : ConnId) (later earlier : List RxEntry) :
    eventsOf conn (later ++ earlier) = eventsOf conn earlier ++ eventsOf conn later := by
  simp [eventsOf, events_append]

theorem eventsOf_cons (conn : ConnId) (entry : RxEntry) (log : List RxEntry) :
    eventsOf conn (entry :: log) = eventsOf conn log ++ eventsOf conn [entry] :=
  eventsOf_append conn [entry] log

/-- The entries about a slot are those of its connections. -/
theorem filter_concerns (slot : Nat) (log : List RxEntry) :
    log.filter (RxEntry.concerns slot) = (history slot log :: past slot log).flatten := by
  induction log with
  | nil => rfl
  | cons entry log ih =>
      by_cases opened : entry = .opened slot
      · subst opened
        rw [history_cons_self, past_cons_self, List.filter_cons_of_neg (by simp [RxEntry.concerns]),
          ih]
        rfl
      · rw [past_cons_of_ne opened]
        cases concerned : entry.concerns slot with
        | true =>
            rw [history_cons_of_concerns concerned, List.filter_cons_of_pos concerned, ih]
            rfl
        | false =>
            rw [history_cons_of_not_concerns opened concerned,
              List.filter_cons_of_neg (by simp [concerned]), ih]

theorem eventsOf_filter_concerns (conn : ConnId) (log : List RxEntry) :
    eventsOf conn (log.filter (RxEntry.concerns conn.slot)) = eventsOf conn log := by
  induction log with
  | nil => rfl
  | cons entry log ih =>
      rw [List.filter_cons]
      split
      · rw [eventsOf_cons, ih, ← eventsOf_cons]
      · rename_i unconcerned
        have none : eventsOf conn [entry] = [] := by
          cases entry with
          | event pushed =>
              have other : pushed.conn ≠ conn := by
                rintro rfl
                exact unconcerned (beq_self_eq_true _)
              simp [eventsOf, RxEntry.pushed?, other]
          | _ => rfl
        rw [ih, eventsOf_cons, none, List.append_nil]

/-! ## Words of events -/

/-- `accepted data* peer_closed? (closed | reset)?`. -/
def EventPattern (types : List TcpEventType) : Prop :=
  ∃ count, ∃ half ∈ [[], [.peerClosed]], ∃ last ∈ [[], [.closed], [.reset]],
    types = .accepted :: (List.replicate count .data ++ half ++ last)

/-- The part of the word that a connection has produced, by its state. -/
def EventsAt (types : List TcpEventType) : TcpState → Prop
  | .free => types = [] ∨ EventPattern types
  | .synReceived => types = []
  | .established | .finWait1 | .finWait2 | .closing =>
      ∃ count, types = .accepted :: List.replicate count .data
  | .closeWait | .lastAck =>
      ∃ count, types = .accepted :: (List.replicate count .data ++ [.peerClosed])
  | .closed => EventPattern types

namespace EventsAt

variable {types : List TcpEventType} {state : TcpState}

/-- What a connection has told is a word of the protocol, or nothing. -/
theorem word (told : EventsAt types state) : types = [] ∨ EventPattern types := by
  cases state with
  | free => exact told
  | synReceived => exact Or.inl told
  | established | finWait1 | finWait2 | closing =>
      obtain ⟨count, rfl⟩ := told
      exact Or.inr ⟨count, [], by simp, [], by simp, by simp⟩
  | closeWait | lastAck =>
      obtain ⟨count, rfl⟩ := told
      exact Or.inr ⟨count, [.peerClosed], by simp, [], by simp, by simp⟩
  | closed => exact Or.inr told

theorem synced (told : EventsAt types state) (finSent : Bool) :
    EventsAt types (state.synced finSent) := by
  cases finSent <;> cases state <;> exact told

theorem of_nil (told : EventsAt [] state) (live : state ≠ .free) : state = .synReceived := by
  cases state with
  | free => exact absurd rfl live
  | synReceived => rfl
  | closed =>
      obtain ⟨_, _, _, _, _, word⟩ := told
      cases word
  | _ =>
      obtain ⟨_, word⟩ := told
      cases word

theorem data (told : EventsAt types state) (receives : state.canReceive = true) :
    EventsAt (types ++ [.data]) state := by
  cases state with
  | established | finWait1 | finWait2 =>
      obtain ⟨count, rfl⟩ := told
      refine ⟨count + 1, ?_⟩
      rw [List.replicate_succ', List.cons_append]
  | _ => cases receives

/-- A terminal event ends the word. -/
theorem terminal (told : EventsAt types state) (accepted : state.accepted = true)
    (live : state ≠ .closed) {why : TcpEventType} (ends : why = .closed ∨ why = .reset) :
    EventsAt (types ++ [why]) .closed := by
  have last : [why] ∈ [[], [.closed], [.reset]] := by
    rcases ends with rfl | rfl <;> simp
  cases state with
  | free | synReceived => cases accepted
  | closed => exact absurd rfl live
  | established | finWait1 | finWait2 | closing =>
      obtain ⟨count, rfl⟩ := told
      exact ⟨count, [], by simp, [why], last, by simp⟩
  | closeWait | lastAck =>
      obtain ⟨count, rfl⟩ := told
      exact ⟨count, [.peerClosed], by simp, [why], last, by simp⟩

end EventsAt

/-! ## The events of one connection -/

/-- An event belongs to the connection with this identity. -/
structure Owns (slot : Nat) (identity : TcpConnection.Identity) (event : TcpEvent) : Prop where
  conn : event.conn = ⟨slot, identity.generation⟩
  peerAddr : event.peerAddr = identity.peerIp
  peerPort : event.peerPort = identity.peerPort
  localPort : event.localPort = identity.localPort
  nonempty : event.type = .data → event.data ≠ []

/-- What has been told is what the state says, and all of it about this connection. -/
structure EventInvariant (session : Session) : Prop where
  told : EventsAt ((events session.history).map TcpEvent.type) session.conn.state
  owned : ∀ event ∈ events session.history, Owns session.slot session.conn.identity event

theorem Session.owns_makeEvent (session : Session) {type : TcpEventType} {data : List Byte}
    (proper : type = .data → data ≠ []) :
    Owns session.slot session.conn.identity (session.makeEvent type data) :=
  ⟨rfl, rfl, rfl, rfl, proper⟩

/-- What a segment delivers is not empty. -/
theorem Session.deliver_nonempty {session : Session} {seg : Segment}
    (inOrder : seqGt seg.seq session.conn.rcvNxtLocal = false)
    (new : seqGt (seg.seq + seg.len) session.conn.rcvNxtLocal = true) :
    seg.payload.drop (session.conn.rcvNxtLocal - seg.seq).toNat ≠ [] := by
  rw [seqGt, seqLt, Serial.not_lt_iff] at inOrder
  rw [seqGt, seqLt, Serial.lt_iff] at new
  have length : Serial.dist seg.seq (seg.seq + seg.len) = seg.payload.length :=
    Serial.dist_add_ofNat seg.seq (Nat.lt_trans seg.payload_lt (by decide))
  have overlap := Serial.dist_add_dist (a := seg.seq) (b := session.conn.rcvNxtLocal)
    (c := seg.seq + seg.len) (by omega)
  rw [Ne, List.drop_eq_nil_iff]
  change ¬seg.payload.length ≤ Serial.dist seg.seq session.conn.rcvNxtLocal
  omega

namespace EventInvariant

variable {session session' : Session} {seg : Segment}

/-- Nothing has been told. -/
theorem congr (invariant : EventInvariant session) (slot : session'.slot = session.slot)
    (identity : session'.conn.identity = session.conn.identity)
    (same : events session'.history = events session.history)
    (told : EventsAt ((events session.history).map TcpEvent.type) session'.conn.state) :
    EventInvariant session' := by
  constructor
  · rw [same]
    exact told
  · rw [same, slot, identity]
    exact invariant.owned

/-- One event has been told. -/
theorem pushed (invariant : EventInvariant session) {type : TcpEventType} {data : List Byte}
    (slot : session'.slot = session.slot)
    (identity : session'.conn.identity = session.conn.identity)
    (grown : events session'.history = events session.history ++ [session.makeEvent type data])
    (proper : type = .data → data ≠ [])
    (told : EventsAt ((events session.history).map TcpEvent.type ++ [type]) session'.conn.state) :
    EventInvariant session' := by
  constructor
  · rw [grown, List.map_append]
    exact told
  · rw [grown, slot, identity]
    intro event member
    rcases List.mem_append.mp member with old | new
    · exact invariant.owned event old
    · rw [List.mem_singleton.mp new]
      exact session.owns_makeEvent proper

theorem opened (k : TcpStack) (session : Session) (seg : Segment) (peerMss : BitVec 16)
    (rand : BitVec 64) : EventInvariant (session.openFor k seg peerMss rand) :=
  ⟨rfl, by rintro _ ⟨⟩⟩

section

variable (invariant : EventInvariant session)
include invariant

/-- The end of a connection is told, and nothing after it. -/
theorem terminate (accepted : session.conn.state.accepted = true)
    (live : session.conn.state ≠ .closed) {why : TcpEventType}
    (ends : why = .closed ∨ why = .reset) :
    EventInvariant (session.terminate why) := by
  refine invariant.pushed rfl rfl (events_cons _ _) ?_ (invariant.told.terminal accepted live ends)
  rintro rfl
  rcases ends with data | data <;> cases data

theorem record : EventInvariant (session.record seg) := by
  have continues := session.record_continues seg
  refine invariant.congr continues.slot continues.identity rfl ?_
  rw [session.record_state seg]
  exact invariant.told

theorem finishAck : EventInvariant (session.finishAck seg).2 := by
  have told := invariant.told
  unfold Session.finishAck
  split
  · split
    · rename_i state
      rw [state] at told
      exact invariant.congr rfl rfl rfl told
    · rename_i state
      exact invariant.terminate (by rw [state]; rfl) (by rw [state]; decide) (Or.inl rfl)
    · rename_i state
      exact invariant.terminate (by rw [state]; rfl) (by rw [state]; decide) (Or.inl rfl)
    · exact invariant
  · exact invariant

/-- What a segment does before its data is looked at. -/
theorem control (move : ControlMove seg session session') : EventInvariant session' := by
  have told := invariant.told
  cases move with
  | sync => exact invariant.congr rfl rfl rfl (told.synced _)
  | abandon early =>
      rw [early] at told
      exact invariant.congr rfl rfl rfl (Or.inl told)
  | establish early =>
      rw [early] at told
      refine invariant.pushed rfl rfl (events_cons _ _) (by rintro ⟨⟩) ⟨0, ?_⟩
      rw [show (events session.history).map TcpEvent.type = [] from told]
      rfl
  | reset accepted live => exact invariant.terminate accepted live (Or.inr rfl)
  | refuse => exact invariant.congr rfl rfl (by simp [Session.note, RxEntry.pushed?]) told
  | ack => exact invariant.record.finishAck

/-- Data is told in the states that can receive, and the peer's FIN once. -/
theorem data (move : DataMove seg session session') : EventInvariant session' := by
  have told := invariant.told
  have taken : events session.takeFin.history = events session.history := by
    simp [Session.takeFin, Session.note, Session.update, RxEntry.pushed?]
  cases move with
  | deliver receives inOrder new =>
      exact invariant.pushed rfl rfl (events_cons _ _)
        (fun _ => Session.deliver_nonempty inOrder new) (told.data receives)
  | peerClosed state =>
      rw [state] at told
      obtain ⟨count, word⟩ := told
      have grown : events ((session.takeFin.setState .closeWait).push .peerClosed []).history =
          events session.history ++ [session.makeEvent .peerClosed []] := by
        rw [← taken]
        exact events_cons _ _
      refine invariant.pushed rfl rfl grown (by rintro ⟨⟩) ⟨count, ?_⟩
      rw [word, List.cons_append]
  | closing state =>
      rw [state] at told
      exact invariant.congr rfl rfl taken told
  | finished state =>
      have live : EventInvariant session.takeFin := invariant.congr rfl rfl taken told
      have same : session.takeFin.conn.state = .finWait2 := state
      exact live.terminate (by rw [same]; rfl) (by rw [same]; decide) (Or.inl rfl)
  | publish => exact invariant.congr rfl rfl rfl told

end

/-- A segment tells the application what its state allows next. -/
theorem processSegment (k : TcpStack) (invariant : EventInvariant session) :
    EventInvariant (session.processSegment k seg) :=
  Session.processSegment_keeps EventInvariant k invariant control data

/-- Tasks and calls keep the events in step with the state. -/
theorem step {k : TcpStack} {action : Action} (invariant : EventInvariant session)
    (step : SessionStep k session action session') : EventInvariant session' := by
  cases step with
  | idle => exact invariant
  | @opened packet seg peerMss => exact opened k session seg peerMss packet.rand
  | segment => exact invariant.processSegment k
  | freed => exact invariant.congr rfl rfl rfl invariant.told.word
  | call _ step => cases step <;> exact invariant.congr rfl rfl rfl invariant.told
  | stray => exact invariant.congr rfl rfl rfl invariant.told

end EventInvariant

/-! ## The connections of a slot -/

/-- The generation of a slot that has been opened so often. -/
def generationAfter (count : Nat) : BitVec 32 :=
  nextGeneration^[count] 0

theorem generationAfter_succ (count : Nat) :
    generationAfter (count + 1) = nextGeneration (generationAfter count) :=
  Function.iterate_succ_apply' nextGeneration count 0

theorem generationAfter_eq {count : Nat} (few : count < 2 ^ 32) :
    generationAfter count = BitVec.ofNat 32 count := by
  induction count with
  | zero => rfl
  | succ count ih =>
      have next : BitVec.ofNat 32 count + 1 = BitVec.ofNat 32 (count + 1) :=
        (BitVec.ofNat_add count 1).symm
      have nonzero : BitVec.ofNat 32 (count + 1) ≠ 0 := by
        intro zero
        have zero := congrArg BitVec.toNat zero
        rw [BitVec.toNat_ofNat, Nat.mod_eq_of_lt few] at zero
        cases zero
      rw [generationAfter_succ, ih (by omega), nextGeneration, next, if_neg nonzero]

/-- What one connection has told. -/
structure Block (slot : Nat) (generation : BitVec 32) (block : List RxEntry) : Prop where
  word : (events block).map TcpEvent.type = [] ∨ EventPattern ((events block).map TcpEvent.type)
  owned : ∃ identity : TcpConnection.Identity, identity.generation = generation ∧
    ∀ event ∈ events block, Owns slot identity event

/-- What the connections of a slot have told, newest first. -/
def Blocks (slot : Nat) : List (List RxEntry) → Prop
  | [] => True
  | block :: earlier => Block slot (generationAfter earlier.length) block ∧ Blocks slot earlier

theorem Block.eventsOf_self {slot : Nat} {generation : BitVec 32} {block : List RxEntry}
    (told : Block slot generation block) : eventsOf ⟨slot, generation⟩ block = events block := by
  obtain ⟨identity, rfl, owned⟩ := told.owned
  exact List.filter_eq_self.mpr fun event member => decide_eq_true (owned event member).conn

theorem Block.eventsOf_other {slot : Nat} {generation other : BitVec 32} {block : List RxEntry}
    (told : Block slot generation block) (different : generation ≠ other) :
    eventsOf ⟨slot, other⟩ block = [] := by
  obtain ⟨identity, rfl, owned⟩ := told.owned
  refine List.filter_eq_nil_iff.mpr fun event member => ?_
  rw [decide_eq_true_iff, (owned event member).conn]
  exact fun same => different (congrArg ConnId.generation same)

namespace Blocks

variable {slot : Nat} {blocks : List (List RxEntry)}

/-- No generation that is still to come has told anything. -/
theorem eventsOf_unused (told : Blocks slot blocks) {count : Nat}
    (later : blocks.length ≤ count) (few : count < 2 ^ 32) :
    eventsOf ⟨slot, generationAfter count⟩ blocks.flatten = [] := by
  induction blocks with
  | nil => rfl
  | cons block earlier ih =>
      obtain ⟨first, rest⟩ := told
      rw [List.length_cons] at later
      have different : generationAfter earlier.length ≠ generationAfter count := by
        rw [generationAfter_eq (by omega), generationAfter_eq few]
        intro same
        have same := congrArg BitVec.toNat same
        rw [BitVec.toNat_ofNat, BitVec.toNat_ofNat, Nat.mod_eq_of_lt (by omega),
          Nat.mod_eq_of_lt few] at same
        omega
      rw [List.flatten_cons, eventsOf_append, first.eventsOf_other different,
        ih rest (by omega), List.append_nil]

/-- All events with one id come from one connection. -/
theorem eventsOf_flatten (told : Blocks slot blocks) (few : blocks.length ≤ 2 ^ 32)
    (generation : BitVec 32) :
    eventsOf ⟨slot, generation⟩ blocks.flatten = [] ∨
      ∃ block ∈ blocks, Block slot generation block ∧
        eventsOf ⟨slot, generation⟩ blocks.flatten = events block := by
  induction blocks with
  | nil => exact Or.inl rfl
  | cons block earlier ih =>
      obtain ⟨first, rest⟩ := told
      rw [List.length_cons] at few
      rw [List.flatten_cons, eventsOf_append]
      by_cases same : generationAfter earlier.length = generation
      · subst same
        refine Or.inr ⟨block, List.mem_cons_self, first, ?_⟩
        rw [rest.eventsOf_unused (Nat.le_refl _) (by omega), first.eventsOf_self, List.nil_append]
      · rw [first.eventsOf_other same, List.append_nil]
        rcases ih rest (by omega) with none | ⟨found, member, told⟩
        · exact Or.inl none
        · exact Or.inr ⟨found, List.mem_cons_of_mem _ member, told⟩

end Blocks

/-- What a slot's connections have told, the present one included. -/
structure EventHistory (session : Session) : Prop where
  generation : session.conn.generation = generationAfter session.opens
  invariant : EventInvariant session
  past : Blocks session.slot session.past

namespace EventHistory

variable {k : TcpStack} {session session' : Session} {action : Action}

theorem block (recorded : EventHistory session) :
    Block session.slot (generationAfter session.opens) session.history where
  word := recorded.invariant.told.word
  owned := ⟨session.conn.identity, recorded.generation, recorded.invariant.owned⟩

theorem blocks (recorded : EventHistory session) :
    Blocks session.slot (session.history :: session.past) :=
  ⟨recorded.block, recorded.past⟩

/-- A new connection starts a new block. -/
theorem step (recorded : EventHistory session) (step : SessionStep k session action session') :
    EventHistory session' := by
  have invariant := recorded.invariant.step step
  cases step with
  | opened =>
      refine ⟨?_, invariant, recorded.blocks⟩
      rw [Session.openFor_opens, generationAfter_succ, ← recorded.generation]
      rfl
  | @segment packet seg =>
      have continues := session.processSegment_continues seg k
      refine ⟨?_, invariant, ?_⟩
      · rw [Session.opens, continues.past,
          show (session.processSegment k seg).conn.generation = session.conn.generation from
            congrArg TcpConnection.Identity.generation continues.identity]
        exact recorded.generation
      · rw [continues.slot, continues.past]
        exact recorded.past
  | call _ called => cases called <;> exact ⟨recorded.generation, invariant, recorded.past⟩
  | _ => exact ⟨recorded.generation, invariant, recorded.past⟩

/-- The run lemma: every slot's events, in every reachable state. -/
theorem reachable {state : State} (reachable : Reachable k state) (i : Nat) :
    EventHistory (state.memory.session i) :=
  (Run.session i EventHistory reachable (Regular.initial k)
    ⟨rfl, ⟨Or.inl rfl, by rintro _ ⟨⟩⟩, trivial⟩
    fun _ _ _ _ recorded step => recorded.step step).2

end EventHistory

theorem eventsOf_log (conn : ConnId) (mem : Memory) :
    eventsOf conn mem.rx.log =
      eventsOf conn ((mem.session conn.slot).history ::
        (mem.session conn.slot).past).flatten := by
  rw [← eventsOf_filter_concerns, filter_concerns]
  rfl

/-- A segment completes the handshake of a connection. -/
structure HandshakeAck (iss : BitVec 32) (seg : Segment) : Prop where
  ack : seg.has ackFlag = true
  syn : seg.has synFlag = false
  rst : seg.has rstFlag = false
  expected : seg.ack = iss + 1

/-- Only a segment that completes the handshake gets an event out of it. -/
theorem Session.processHandshake_first {k : TcpStack} {session : Session} {seg : Segment}
    (untold : events session.history = [])
    (told : events (session.processHandshake k seg).history ≠ []) :
    HandshakeAck session.conn.iss seg := by
  unfold processHandshake at told
  split at told
  · split at told <;> exact absurd untold told
  · rename_i rst
    split at told
    · exact absurd untold told
    · rename_i expected
      obtain ⟨⟨syn, ack⟩, acked⟩ : (seg.has synFlag = false ∧ seg.has ackFlag = true) ∧
          seg.ack = session.conn.iss + 1 := by simpa using expected
      exact ⟨ack, syn, by simpa using rst, acked⟩

/-- The first event of a connection comes with the end of its handshake. -/
theorem SessionStep.first {k : TcpStack} {session session' : Session} {action : Action}
    (step : SessionStep k session action session') (invariant : EventInvariant session)
    (same : session'.opens = session.opens) (untold : events session.history = [])
    (told : events session'.history ≠ []) :
    ∃ packet seg, action = .task (.packet packet) ∧
      decode k packet.frame packet.contiguous = some (.segment seg) ∧ session.Matches seg ∧
      HandshakeAck session.conn.iss seg := by
  cases step with
  | opened => exact absurd same (Nat.succ_ne_self _)
  | @segment packet seg decoded named live =>
      refine ⟨packet, seg, rfl, decoded, named, ?_⟩
      have nothing := invariant.told
      rw [untold] at nothing
      have synced : session.syncOutFlags = session.setState .synReceived := by
        rw [Session.syncOutFlags_eq, nothing.of_nil live]
        rfl
      rw [Session.processSegment, synced] at told
      have acked : HandshakeAck (session.setState .synReceived).conn.iss seg :=
        Session.processHandshake_first untold told
      exact acked
  | call _ step => cases step <;> exact absurd untold told
  | _ => exact absurd untold told

/-- What has been told stays told. -/
theorem SessionStep.flatten {k : TcpStack} {session session' : Session} {action : Action}
    (step : SessionStep k session action session') :
    (session.history :: session.past).flatten <:+ (session'.history :: session'.past).flatten := by
  rcases step.past with same | ⟨_, _, _, _, _, _, rfl⟩
  · obtain ⟨added, grown⟩ := step.history (by rw [Session.opens, same, Session.opens])
    rw [same, ← grown, List.flatten_cons, List.flatten_cons, List.append_assoc]
    exact List.suffix_append added _
  · exact List.suffix_rfl

/-- What has been told stays in the log. -/
theorem Run.keeps_events {k : TcpStack} {ok : State → Action → Prop} {start state : State}
    (run : Run k ok start state) (regular : Regular k start) (conn : ConnId) :
    ∀ event ∈ eventsOf conn start.memory.rx.log, event ∈ eventsOf conn state.memory.rx.log := by
  have grown := (run.session conn.slot
    (fun session => ((start.memory.session conn.slot).history ::
      (start.memory.session conn.slot).past).flatten <:+
        (session.history :: session.past).flatten)
    regular List.suffix_rfl fun _ _ _ _ grown step => grown.trans step.flatten).2
  obtain ⟨added, grown⟩ := grown
  intro event member
  rw [eventsOf_log, ← grown, eventsOf_append, ← eventsOf_log]
  exact List.mem_append_left _ member

/-- The action that gets the first event with an id is a segment that completes the
handshake of the connection with that id, and the event carries its addresses. -/
theorem Act.first {k : TcpStack} {state state' : State} {action : Action} {conn : ConnId}
    (act : Act k state action state') (reachable : Reachable k state)
    (untold : eventsOf conn state.memory.rx.log = [])
    (told : eventsOf conn state'.memory.rx.log ≠ []) :
    ∃ packet seg, action = .task (.packet packet) ∧
      decode k packet.frame packet.contiguous = some (.segment seg) ∧
      HandshakeAck (state.memory.rx.slots conn.slot).iss seg ∧
      (state.memory.session conn.slot).connId = conn ∧
      ∃ event ∈ eventsOf conn state'.memory.rx.log, event.peerAddr = seg.srcIp ∧
        event.peerPort = seg.srcPort ∧ event.localPort = seg.dstPort := by
  have step := act.session reachable.regular conn.slot
  have recorded := EventHistory.reachable reachable conn.slot
  have recorded' := EventHistory.reachable (reachable.step act trivial) conn.slot
  rw [eventsOf_log] at untold told ⊢
  set session := state.memory.session conn.slot
  set session' := state'.memory.session conn.slot
  rcases step.past with same | ⟨_, _, _, _, _, _, reopened⟩
  · rw [List.flatten_cons, eventsOf_append, List.append_eq_nil_iff] at untold
    rw [List.flatten_cons, eventsOf_append, same, untold.1, List.nil_append] at told ⊢
    have sameOpens : session'.opens = session.opens := by
      rw [Session.opens, same, Session.opens]
    obtain ⟨event, member⟩ := List.exists_mem_of_ne_nil _ told
    obtain ⟨listed, named⟩ := List.mem_filter.mp member
    have owned := recorded'.invariant.owned event listed
    rw [step.identity sameOpens] at owned
    have here : session.connId = conn := owned.conn.symm.trans (of_decide_eq_true named)
    have silent : events session.history = [] := by
      rw [← untold.2, ← here, Session.connId, recorded.generation]
      exact recorded.block.eventsOf_self.symm
    obtain ⟨packet, seg, rfl, decoded, matched, acked⟩ :=
      step.first recorded.invariant sameOpens silent (List.ne_nil_of_mem listed)
    refine ⟨packet, seg, rfl, decoded, acked, here, event, member, ?_⟩
    rw [owned.peerAddr, owned.peerPort, owned.localPort, matched.peerIp, matched.peerPort,
      matched.localPort]
    exact ⟨rfl, rfl, rfl⟩
  · rw [reopened] at told
    exact absurd untold told

/-- Event protocol.  In every run in which a slot is not opened too often, the events
that carry one id form one word of `accepted data* peer_closed? (closed | reset)?`.
Data events are not empty.  The first event came with a segment that has ACK, neither
SYN nor RST, and acknowledges our SYN, and all of the events carry the addresses of
that segment. -/
theorem event_protocol {k : TcpStack} {state : State} (reachable : Reachable k state)
    (conn : ConnId) (few : opens conn.slot state.memory.rx.log < 2 ^ 32 - 1)
    (appears : eventsOf conn state.memory.rx.log ≠ []) :
    let told := eventsOf conn state.memory.rx.log
    EventPattern (told.map TcpEvent.type) ∧
      (∀ event ∈ told, event.type = .data → event.data ≠ []) ∧
      ∃ before after packet seg, Reachable k before ∧
        Act k before (.task (.packet packet)) after ∧
        Run k (fun _ _ => True) after state ∧
        eventsOf conn before.memory.rx.log = [] ∧ eventsOf conn after.memory.rx.log ≠ [] ∧
        decode k packet.frame packet.contiguous = some (.segment seg) ∧
        HandshakeAck (before.memory.rx.slots conn.slot).iss seg ∧
        ∀ event ∈ told, event.peerAddr = seg.srcIp ∧ event.peerPort = seg.srcPort ∧
          event.localPort = seg.dstPort := by
  intro told
  obtain ⟨block, _, words, here⟩ : ∃ block ∈ (state.memory.session conn.slot).history ::
      (state.memory.session conn.slot).past, Block conn.slot conn.generation block ∧
      eventsOf conn state.memory.rx.log = events block := by
    have blocks := (EventHistory.reachable reachable conn.slot).blocks
    rw [eventsOf_log] at appears ⊢
    refine (blocks.eventsOf_flatten ?_ conn.generation).resolve_left appears
    rw [List.length_cons]
    have count := session_opens state.memory conn.slot
    rw [Session.opens] at count
    omega
  obtain ⟨before, action, after, reached, act, rest, untold, first⟩ :=
    reachable.first (fun state => eventsOf conn state.memory.rx.log ≠ []) (fun some => some rfl)
      appears
  have untold := not_not.mp untold
  obtain ⟨packet, seg, rfl, decoded, acked, _, event, member, addresses⟩ :=
    act.first reached untold first
  obtain ⟨identity, _, owned⟩ := words.owned
  have reachedAfter : Reachable k after := reached.step act trivial
  have listed := rest.keeps_events reachedAfter.regular conn event member
  rw [here] at listed
  refine ⟨?_, ?_, before, after, packet, seg, reached, act, rest, untold, first, decoded, acked, ?_⟩
  · rw [show told = events block from here]
    refine words.word.resolve_left fun empty => appears ?_
    rw [here]
    exact List.map_eq_nil_iff.mp empty
  · intro event member
    rw [show told = events block from here] at member
    exact (owned event member).nonempty
  · intro other member
    rw [show told = events block from here] at member
    have same := owned event listed
    have others := owned other member
    rw [others.peerAddr, others.peerPort, others.localPort, ← same.peerAddr, ← same.peerPort,
      ← same.localPort]
    exact addresses

/-- Two bytes, the peer's FIN and a reset. -/
theorem event_protocol_of_reset :
    let receive := fun mem packet => (((Task.packet packet).code singleSlot).run mem).2
    let finished := receive singleSlotAccepted.memory
      (peerPacket 8 1 (finFlag ||| ackFlag) 1000 [104, 105])
    let told := eventsOf ⟨0, 1⟩ (receive finished (peerPacket 11 1 rstFlag 0 [])).rx.log
    told.map TcpEvent.type = [.accepted, .data, .peerClosed, .reset] ∧
      EventPattern (told.map TcpEvent.type) := by
  intro receive finished told
  have finishedReached : Reachable singleSlot ⟨.polling 3, finished⟩ :=
    singleSlotAccepted_reachable.step (.task (.packet _) rfl) trivial
  have reached : Reachable singleSlot
      ⟨.polling 4, receive finished (peerPacket 11 1 rstFlag 0 [])⟩ :=
    finishedReached.step (.task (.packet _) rfl) trivial
  exact ⟨by decide, (event_protocol reached ⟨0, 1⟩ (by decide) (by decide)).1⟩

end DpdkWrapper.Tcp
