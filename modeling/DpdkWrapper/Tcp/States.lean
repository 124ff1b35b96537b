import DpdkWrapper.Tcp.History
import DpdkWrapper.Tcp.SendWindow

/-!
# What the state of a connection means

Three facts determine the state of an accepted connection: whether our FIN is
published, whether all we have sent is acknowledged, and whether the peer's FIN has
been consumed.  `closed` is told by the segment that makes all three true.

`StateFacts` tabulates which facts each state stands for, and `StateConsistent` states them of a
session, with the send numbers.  The table is kept by segments and by calls.  A state may lag
behind our FIN until the next segment, which is why the result is stated after `sync_out_flags`.
-/

namespace DpdkWrapper.Tcp

open Wire

/-- How the state agrees with the facts: `flight` is what is unacknowledged, and
`closed` and `reset` are what the application has been told. -/
def StateFacts (finSent peerFin closed reset : Bool) (flight : Nat) : TcpState → Prop
  | .free => True
  | .synReceived => (if finSent then 1 else 0) + 1 ≤ flight ∧ peerFin = false ∧
      closed = false ∧ reset = false
  | .established => (finSent = true → flight ≠ 0) ∧ peerFin = false ∧
      closed = false ∧ reset = false
  | .closeWait => (finSent = true → flight ≠ 0) ∧ peerFin = true ∧
      closed = false ∧ reset = false
  | .finWait1 => finSent = true ∧ flight ≠ 0 ∧ peerFin = false ∧
      closed = false ∧ reset = false
  | .finWait2 => finSent = true ∧ flight = 0 ∧ peerFin = false ∧
      closed = false ∧ reset = false
  | .closing | .lastAck => finSent = true ∧ flight ≠ 0 ∧ peerFin = true ∧
      closed = false ∧ reset = false
  | .closed => (reset = true ∧ closed = false) ∨
      (reset = false ∧ closed = true ∧ finSent = true ∧ flight = 0 ∧ peerFin = true)

/-- The state of a session agrees with its facts, and its send numbers are
consistent. -/
structure StateConsistent (session : Session) : Prop where
  flow : session.conn.state ≠ .free → Flow session.conn.numbers session.out
  unaccepted : session.conn.state = .synReceived →
    session.conn.sndUna = session.conn.iss ∧ session.history = []
  stands : StateFacts (hasFinSent session.out.outFlags) (finConsumed session.history)
    (told .closed session.history) (told .reset session.history) session.flight
    session.conn.state

theorem TcpState.synced_eq_synReceived {finSent : Bool} {state : TcpState}
    (unaccepted : state.synced finSent = .synReceived) : state = .synReceived := by
  cases finSent <;> cases state <;> first | rfl | cases unaccepted

theorem StateFacts.synced {finSent peerFin closed reset : Bool} {flight : Nat} {state : TcpState}
    (stands : StateFacts finSent peerFin closed reset flight state) :
    StateFacts finSent peerFin closed reset flight (state.synced finSent) := by
  cases finSent with
  | false => cases state <;> exact stands
  | true =>
      cases state with
      | established => exact ⟨rfl, stands.1 rfl, stands.2⟩
      | closeWait => exact ⟨rfl, stands.1 rfl, stands.2⟩
      | _ => exact stands

/-- An ACK that leaves something in flight, or finds nothing to acknowledge. -/
theorem StateFacts.partly {finSent peerFin closed reset : Bool} {flight later : Nat}
    {state : TcpState} (stands : StateFacts finSent peerFin closed reset flight state)
    (unaccepted : state ≠ .synReceived) (fewer : later ≤ flight)
    (some : finSent = true → flight ≠ 0 → later ≠ 0) :
    StateFacts finSent peerFin closed reset later state := by
  cases state with
  | free => trivial
  | synReceived => exact absurd rfl unaccepted
  | established => exact ⟨fun sent => some sent (stands.1 sent), stands.2⟩
  | closeWait => exact ⟨fun sent => some sent (stands.1 sent), stands.2⟩
  | finWait1 => exact ⟨stands.1, some stands.1 stands.2.1, stands.2.2⟩
  | closing => exact ⟨stands.1, some stands.1 stands.2.1, stands.2.2⟩
  | lastAck => exact ⟨stands.1, some stands.1 stands.2.1, stands.2.2⟩
  | finWait2 => exact ⟨stands.1, Nat.le_zero.mp (stands.2.1 ▸ fewer), stands.2.2⟩
  | closed =>
      rcases stands with reset | ⟨unreset, told, sent, none, fin⟩
      · exact Or.inl reset
      · exact Or.inr ⟨unreset, told, sent, Nat.le_zero.mp (none ▸ fewer), fin⟩

/-- More is in flight, our FIN perhaps among it. -/
theorem StateFacts.grown {finSent peerFin closed reset : Bool} {flight more : Nat}
    {state : TcpState} (stands : StateFacts false peerFin closed reset flight state)
    (fin : finSent = true → more ≠ 0) :
    StateFacts finSent peerFin closed reset (flight + more) state := by
  cases state with
  | free => trivial
  | synReceived =>
      obtain ⟨ahead, rest⟩ := stands
      refine ⟨?_, rest⟩
      cases finSent with
      | false => exact Nat.le_trans ahead (Nat.le_add_right _ _)
      | true =>
          have := fin rfl
          simp only [Bool.false_eq_true, if_false, if_true] at ahead ⊢
          omega
  | established => exact ⟨fun sent zero => fin sent (Nat.add_eq_zero_iff.mp zero).2, stands.2⟩
  | closeWait => exact ⟨fun sent zero => fin sent (Nat.add_eq_zero_iff.mp zero).2, stands.2⟩
  | finWait1 | finWait2 | closing | lastAck => cases stands.1
  | closed =>
      rcases stands with reset | ⟨_, _, sent, _⟩
      · exact Or.inl reset
      · cases sent

namespace StateConsistent

variable {session : Session} {seg : Segment}

theorem of_flow (flow : Flow session.conn.numbers session.out)
    (accepted : session.conn.state ≠ .synReceived)
    (stands : StateFacts (hasFinSent session.out.outFlags) (finConsumed session.history)
      (told .closed session.history) (told .reset session.history) session.flight
      session.conn.state) : StateConsistent session :=
  ⟨fun _ => flow, fun unaccepted => absurd unaccepted accepted, stands⟩

/-- A connection that is being opened has nothing in flight but its SYN. -/
theorem opened (k : TcpStack) (session : Session) (seg : Segment) (peerMss : BitVec 16)
    (rand : BitVec 64) : StateConsistent (session.openFor k seg peerMss rand) := by
  have ahead : Serial.dist (rand.setWidth 32) (rand.setWidth 32 + 1) = 1 :=
    Serial.dist_add_ofNat (rand.setWidth 32) (by omega : 1 < 2 ^ 32)
  constructor
  case flow =>
    intro _
    refine ⟨rfl, setWidth_window_lt seg.window, ?_⟩
    change Serial.dist (rand.setWidth 32) (rand.setWidth 32 + 1) ≤ _
    omega
  case unaccepted => exact fun _ => ⟨rfl, rfl⟩
  case stands =>
    have noFin : hasFinSent (session.openFor k seg peerMss rand).out.outFlags = false :=
      hasFinSent_zero
    rw [noFin]
    exact ⟨Nat.le_of_eq ahead.symm, rfl, rfl, rfl⟩

/-- `sync_out_flags` brings the state up to date with our FIN. -/
theorem synced (standing : StateConsistent session) : StateConsistent
    (session.setState (session.conn.state.synced (hasFinSent session.out.outFlags))) := by
  refine ⟨fun live => standing.flow fun free => live ?_, fun early => ?_, standing.stands.synced⟩
  · exact (congrArg (TcpState.synced _) free : _)
  · exact standing.unaccepted (TcpState.synced_eq_synReceived early)

/-- The end of the handshake. -/
theorem establish (standing : StateConsistent session) (state : session.conn.state = .synReceived)
    (expected : seg.ack = session.conn.iss + 1) : StateConsistent (session.establish seg) := by
  have flow := standing.flow (by rw [state]; decide)
  obtain ⟨una, empty⟩ := standing.unaccepted state
  have stands := standing.stands
  rw [state] at stands
  obtain ⟨ahead, _⟩ := stands
  have step : Serial.dist session.conn.sndUna seg.ack = 1 := by
    rw [una, expected]
    exact Serial.dist_add_ofNat session.conn.iss (by omega : 1 < 2 ^ 32)
  have rest : Serial.dist seg.ack session.out.sndNxt = session.flight - 1 := by
    rw [← step]
    refine Serial.dist_sub_dist ?_
    rw [step]
    exact Nat.le_trans (Nat.le_add_left 1 _) ahead
  refine of_flow ⟨rfl, setWidth_window_lt seg.window, ?_⟩ (by rintro ⟨⟩) ⟨?_, ?_, ?_, ?_⟩
  · have bound := flow.flight
    change Serial.dist seg.ack session.out.sndNxt ≤ _
    rw [rest]
    exact Nat.le_trans (Nat.sub_le _ _) bound
  · intro published
    have published : hasFinSent session.out.outFlags = true := published
    change Serial.dist seg.ack session.out.sndNxt ≠ 0
    rw [published, if_pos rfl] at ahead
    omega
  all_goals
    simp [Session.establish, Session.push, Session.note, Session.setState, Session.update,
      Session.makeEvent, empty]

/-- Recording an ACK keeps the send numbers, and leaves something in flight unless it
acknowledges everything. -/
structure Recorded (session recorded : Session) (seg : Segment) : Prop where
  flow : Flow recorded.conn.numbers recorded.out
  state : recorded.conn.state = session.conn.state
  out : recorded.out = session.out
  history : recorded.history = session.history
  fewer : recorded.flight ≤ session.flight
  complete : seg.ack = session.out.sndNxt → recorded.flight = 0
  partly : seg.ack ≠ session.out.sndNxt → session.flight ≠ 0 → recorded.flight ≠ 0

theorem record (flow : Flow session.conn.numbers session.out)
    (valid : seqGt seg.ack session.out.sndNxt = false) :
    Recorded session (session.record seg) seg := by
  obtain ⟨flow, acked, una⟩ := Session.record_flow flow valid
  constructor
  case flow => exact flow
  case out => rfl
  case history => rfl
  case state => exact session.record_state seg
  case fewer =>
    rw [Session.flight, una]
    exact acked.le
  case complete =>
    intro all
    rw [Session.flight, una, Serial.dist_eq_zero_iff]
    exact acked.complete all
  case partly =>
    intro some positive zero
    rw [Session.flight, una, Serial.dist_eq_zero_iff] at zero
    exact acked.partly some (fun all => positive (Serial.dist_eq_zero_iff.mpr all)) zero

/-- `closed` is told when all three facts are true. -/
theorem terminateClosed (flow : Flow session.conn.numbers session.out)
    (finSent : hasFinSent session.out.outFlags = true) (acknowledged : session.flight = 0)
    (peerFin : finConsumed session.history = true) (unreset : told .reset session.history = false) :
    StateConsistent (session.terminate .closed) := by
  refine of_flow flow (by rintro ⟨⟩) (Or.inr ⟨?_, ?_, finSent, acknowledged, ?_⟩)
  · simpa [Session.terminate, Session.push, Session.note, Session.update, Session.makeEvent]
      using unreset
  · simp [Session.terminate, Session.push, Session.note, Session.update, Session.makeEvent]
  · simpa [Session.terminate, Session.push, Session.note, Session.update] using peerFin

theorem terminateReset (standing : StateConsistent session)
    (accepted : session.conn.state.accepted = true) (live : session.conn.state ≠ .closed) :
    StateConsistent (session.terminate .reset) := by
  have stands := standing.stands
  have notClosed : told .closed session.history = false := by
    cases state : session.conn.state <;> rw [state] at stands accepted
    case free | synReceived => cases accepted
    case closed => exact absurd state live
    case established | closeWait => exact stands.2.2.1
    case finWait1 | finWait2 | closing | lastAck => exact stands.2.2.2.1
  have free : session.conn.state ≠ .free := fun free => by rw [free] at accepted; cases accepted
  refine of_flow (standing.flow free) (by rintro ⟨⟩) (Or.inl ⟨?_, ?_⟩)
  · simp [Session.terminate, Session.push, Session.note, Session.update, Session.makeEvent]
  · simpa [Session.terminate, Session.push, Session.note, Session.update, Session.makeEvent]
      using notClosed

/-- An ACK of our FIN moves the state on, and no other ACK does. -/
theorem finishAck {recorded : Session} (standing : StateConsistent session)
    (synced : hasFinSent session.out.outFlags = true →
      session.conn.state ≠ .established ∧ session.conn.state ≠ .closeWait)
    (unaccepted : session.conn.state ≠ .synReceived)
    (record : Recorded session recorded seg) : StateConsistent (recorded.finishAck seg).2 := by
  have stands := standing.stands
  have stays : StateFacts (hasFinSent session.out.outFlags) (finConsumed session.history)
      (told .closed session.history) (told .reset session.history) recorded.flight
      session.conn.state → StateConsistent recorded := by
    intro stands
    refine of_flow record.flow (by rw [record.state]; exact unaccepted) ?_
    rw [record.state, record.out, record.history]
    exact stands
  unfold Session.finishAck
  rw [record.state, record.out]
  split
  · rename_i acknowledged
    obtain ⟨published, all⟩ : hasFinSent session.out.outFlags = true ∧
        seg.ack = session.out.sndNxt := by simpa using acknowledged
    have zero := record.complete all
    obtain ⟨notEstablished, notCloseWait⟩ := synced published
    rw [published] at stands stays
    have closes : StateFacts true (finConsumed session.history) (told .closed session.history)
        (told .reset session.history) session.flight .closing →
        StateConsistent (recorded.terminate .closed) := by
      rintro ⟨_, _, fin, _, unreset⟩
      rw [← record.history] at fin unreset
      exact terminateClosed record.flow (by rw [record.out]; exact published) zero fin unreset
    split
    · rename_i state
      rw [state] at stands
      refine of_flow record.flow (by rintro ⟨⟩) ?_
      have same : (recorded.setState .finWait2).history = session.history := record.history
      rw [same, show (recorded.setState .finWait2).out = session.out from record.out, published]
      exact ⟨rfl, zero, stands.2.2⟩
    · rename_i state
      rw [state] at stands
      exact closes stands
    · rename_i state
      rw [state] at stands
      exact closes stands
    · rename_i notFinWait1 notClosing notLastAck
      refine stays ?_
      cases state : session.conn.state <;> rw [state] at stands
      case finWait2 => exact ⟨rfl, zero, stands.2.2⟩
      case free => trivial
      case closed => exact stands.imp_right fun ⟨unreset, told, _, _, fin⟩ =>
        ⟨unreset, told, rfl, zero, fin⟩
      case synReceived => exact absurd state unaccepted
      case established => exact absurd state notEstablished
      case closeWait => exact absurd state notCloseWait
      case finWait1 => exact absurd state notFinWait1
      case closing => exact absurd state notClosing
      case lastAck => exact absurd state notLastAck
  · rename_i unacknowledged
    refine stays (stands.partly unaccepted record.fewer ?_)
    intro published
    refine record.partly fun all => unacknowledged ?_
    rw [published, all, beq_self_eq_true]
    rfl

/-- Nothing that the meaning of the state depends on has changed. -/
theorem congr {session' : Session} (standing : StateConsistent session)
    (unaccepted : session.conn.state ≠ .synReceived)
    (state : session'.conn.state = session.conn.state)
    (numbers : session'.conn.numbers = session.conn.numbers)
    (out : session'.out = session.out)
    (fin : finConsumed session'.history = finConsumed session.history)
    (closed : told .closed session'.history = told .closed session.history)
    (reset : told .reset session'.history = told .reset session.history) :
    StateConsistent session' := by
  constructor
  · rw [state, numbers, out]
    exact standing.flow
  · rw [state]
    exact fun syn => absurd syn unaccepted
  · have flight : session'.flight = session.flight := by
      rw [Session.flight, Session.flight, out,
        show session'.conn.sndUna = session.conn.sndUna from
          congrArg TcpConnection.Numbers.sndUna numbers]
    rw [state, out, fin, closed, reset, flight]
    exact standing.stands

/-- What a segment does before its data is looked at. -/
theorem control {session' : Session} (standing : StateConsistent session)
    (move : ControlMove seg session session') : StateConsistent session' := by
  cases move with
  | sync => exact standing.synced
  | abandon => exact ⟨fun live => absurd rfl live, by rintro ⟨⟩, trivial⟩
  | establish early expected => exact standing.establish early expected
  | reset accepted live => exact standing.terminateReset accepted live
  | refuse accepted =>
      exact standing.congr (TcpState.accepted_iff.mp accepted).2 rfl rfl rfl
        (by simp [Session.note]) (by simp [Session.note]) (by simp [Session.note])
  | ack accepted synced valid =>
      obtain ⟨free, unaccepted⟩ := TcpState.accepted_iff.mp accepted
      exact standing.finishAck synced unaccepted (record (standing.flow free) valid)

/-- Data and the peer's FIN. -/
theorem data {session' : Session} (standing : StateConsistent session)
    (move : DataMove seg session session') : StateConsistent session' := by
  have flow (live : session.conn.state ≠ .free) := standing.flow live
  have stands := standing.stands
  cases move with
  | deliver receives =>
      refine standing.congr ?_ rfl rfl rfl ?_ ?_ ?_
      · intro early
        rw [early] at receives
        cases receives
      all_goals simp [Session.push, Session.note, Session.update, Session.makeEvent]
  | peerClosed state =>
      rw [state] at stands flow
      obtain ⟨sent, _, notClosed, unreset⟩ := stands
      refine of_flow (flow (by rintro ⟨⟩)) (by rintro ⟨⟩) ⟨sent, ?_, ?_, ?_⟩
      all_goals
        simp [Session.takeFin, Session.setState, Session.update, Session.push, Session.note,
          Session.makeEvent, notClosed, unreset]
  | closing state =>
      rw [state] at stands flow
      obtain ⟨sent, some, _, notClosed, unreset⟩ := stands
      refine of_flow (flow (by rintro ⟨⟩)) (by rintro ⟨⟩) ⟨sent, some, ?_, ?_, ?_⟩
      all_goals
        simp [Session.takeFin, Session.setState, Session.update, Session.note, notClosed, unreset]
  | finished state =>
      rw [state] at stands flow
      obtain ⟨sent, none, _, _, unreset⟩ := stands
      refine terminateClosed (flow (by rintro ⟨⟩)) sent none ?_ ?_
      all_goals simp [Session.takeFin, Session.update, Session.note, unreset]
  | publish accepted => exact standing.congr accepted rfl rfl rfl rfl rfl rfl

/-- A segment keeps state and facts in agreement. -/
theorem processSegment (k : TcpStack) (standing : StateConsistent session) :
    StateConsistent (session.processSegment k seg) :=
  Session.processSegment_keeps StateConsistent k standing control data

/-! ## Calls -/

/-- A call that puts more in flight. -/
theorem grown {session' : Session} {more : Nat} (standing : StateConsistent session)
    (unpublished : hasFinSent session.out.outFlags = false)
    (conn : session'.conn = session.conn) (history : session'.history = session.history)
    (flow : Flow session.conn.numbers session.out →
      Flow session.conn.numbers session'.out ∧ session'.flight = session.flight + more)
    (fin : hasFinSent session'.out.outFlags = true → more ≠ 0) : StateConsistent session' := by
  by_cases free : session.conn.state = .free
  · refine ⟨?_, ?_, ?_⟩
    all_goals
      rw [conn, free]
    · exact fun live => absurd rfl live
    · rintro ⟨⟩
    · trivial
  · obtain ⟨flow, flight⟩ := flow (standing.flow free)
    have stands := standing.stands
    rw [unpublished] at stands
    refine ⟨?_, ?_, ?_⟩
    · rw [conn]
      exact fun _ => flow
    · rw [conn, history]
      exact standing.unaccepted
    · rw [conn, history, flight]
      exact stands.grown fin

/-- A call keeps state and facts in agreement. -/
theorem call {call : Call} {session' : Session} (standing : StateConsistent session)
    (step : CallStep session call session') : StateConsistent session' := by
  cases step with
  | same => exact standing
  | refused => exact ⟨standing.flow, standing.unaccepted, standing.stands⟩
  | sent env named sendable inside window carries =>
      refine standing.grown sendable.finSent rfl rfl
        (fun flow => flow.sent sendable.finSent window) fun fin => ?_
      exact absurd (fin.symm.trans sendable.finSent) (by rintro ⟨⟩)
  | finished env named sendable isFin single =>
      exact standing.grown sendable.finSent rfl rfl
        (fun flow => flow.finished sendable.finSent) (fun _ => Nat.one_ne_zero)
  | released env named held done =>
      have same : hasFinSent (session.out.outFlags ||| outReleased) =
          hasFinSent session.out.outFlags := hasFinSent_or_released _
      refine ⟨fun live => ?_, standing.unaccepted, ?_⟩
      · obtain ⟨window, wnd, flight⟩ := standing.flow live
        refine ⟨window, wnd, ?_⟩
        simpa only [finCount, same] using flight
      · simp only [same]
        exact standing.stands

end StateConsistent

/-! ## Steps and runs -/

/-- The state of a session means what it should, and a slot that was never opened is
free. -/
structure SessionInvariant (session : Session) : Prop where
  unopened : session.opens = 0 → session.conn.state = .free
  standing : StateConsistent session

namespace SessionInvariant

variable {k : TcpStack} {session session' : Session} {action : Action}

theorem of_free (free : session.conn.state = .free) : SessionInvariant session := by
  refine ⟨fun _ => free, ?_, ?_, ?_⟩
  · exact fun live => absurd free live
  · rw [free]
    rintro ⟨⟩
  · rw [free]
    trivial

/-- The step lemma: state and facts agree after every task and call. -/
theorem step (steady : SessionInvariant session) (step : SessionStep k session action session') :
    SessionInvariant session' := by
  obtain ⟨unopened, standing⟩ := steady
  cases step with
  | idle => exact ⟨unopened, standing⟩
  | @opened packet seg peerMss => exact ⟨by rintro ⟨⟩, .opened k session seg peerMss packet.rand⟩
  | @segment packet seg decoded named live =>
      refine ⟨fun never => absurd (unopened ?_) live, standing.processSegment k⟩
      rwa [Session.opens, (session.processSegment_continues seg k).past] at never
  | freed => exact of_free rfl
  | call opened step =>
      refine ⟨fun never => ?_, standing.call step⟩
      have same : session'.opens = session.opens := by cases step <;> rfl
      omega
  | stray out sends never => exact of_free (unopened never)

/-- The run lemma: they agree in every slot of every reachable state. -/
theorem reachable {state : State} (reachable : Reachable k state) (i : Nat) :
    SessionInvariant (state.memory.session i) :=
  (Run.session i SessionInvariant reachable (Regular.initial k) (of_free rfl)
    fun _ _ _ _ steady step => steady.step step).2

end SessionInvariant

theorem Reachable.opened {k : TcpStack} {state : State} (reachable : Reachable k state)
    {i : Nat} (live : (state.memory.rx.slots i).state ≠ .free) :
    0 < (state.memory.session i).opens := by
  rw [Nat.pos_iff_ne_zero]
  exact fun never => live ((SessionInvariant.reachable reachable i).unopened never)

/-- Our FIN is published, everything is acknowledged, and the peer's FIN is
consumed. -/
structure Session.Complete (session : Session) : Prop where
  finSent : hasFinSent session.out.outFlags = true
  acknowledged : session.conn.sndUna = session.out.sndNxt
  peerFin : finConsumed session.history = true

/-- The states that the three facts allow. -/
def expectedStates : (finSent acknowledged peerFin : Bool) → List TcpState
  | false, _, false => [.established]
  | false, _, true => [.closeWait]
  | true, false, false => [.finWait1]
  | true, true, false => [.finWait2]
  | true, false, true => [.closing, .lastAck]
  | true, true, true => [.closed]

/-- The states that the facts leave open. -/
theorem StateFacts.expected {finSent peerFin closed : Bool} {flight : Nat} {state : TcpState}
    (stands : StateFacts finSent peerFin closed false flight state)
    (accepted : state.accepted = true) :
    state.synced finSent ∈ expectedStates finSent (flight == 0) peerFin := by
  cases state with
  | free => cases accepted
  | synReceived => cases accepted
  | established =>
      obtain ⟨some, rfl, _⟩ := stands
      cases finSent with
      | false => exact List.mem_cons_self
      | true => simp [TcpState.synced, expectedStates, beq_false_of_ne (some rfl)]
  | closeWait =>
      obtain ⟨some, rfl, _⟩ := stands
      cases finSent with
      | false => exact List.mem_cons_self
      | true => simp [TcpState.synced, expectedStates, beq_false_of_ne (some rfl)]
  | finWait1 | closing | lastAck =>
      obtain ⟨rfl, some, rfl, _⟩ := stands
      simp [TcpState.synced, expectedStates, beq_false_of_ne some]
  | finWait2 =>
      obtain ⟨rfl, rfl, rfl, _⟩ := stands
      exact List.mem_cons_self
  | closed =>
      rcases stands with ⟨reset, _⟩ | ⟨_, _, rfl, flight, rfl⟩
      · cases reset
      · simp [TcpState.synced, expectedStates, flight]

/-- `closed` has been told exactly when the three facts hold. -/
theorem StateFacts.closed_iff {finSent peerFin closed : Bool} {flight : Nat} {state : TcpState}
    (stands : StateFacts finSent peerFin closed false flight state) (held : state ≠ .free) :
    (closed = true ↔ finSent = true ∧ flight = 0 ∧ peerFin = true) ∧
      (closed = true → state = .closed) := by
  cases state with
  | free => exact absurd rfl held
  | synReceived =>
      obtain ⟨_, rfl, rfl, _⟩ := stands
      simp
  | established =>
      obtain ⟨_, rfl, rfl, _⟩ := stands
      simp
  | closeWait =>
      obtain ⟨some, rfl, rfl, _⟩ := stands
      simpa using some
  | finWait1 | finWait2 | closing | lastAck =>
      obtain ⟨rfl, flight, rfl, rfl, _⟩ := stands
      simp [flight]
  | closed =>
      rcases stands with ⟨reset, _⟩ | ⟨_, rfl, rfl, flight, rfl⟩
      · cases reset
      · simp [flight]

/-- A connection has been told to be closed exactly if both directions are finished. -/
theorem SessionInvariant.closed_iff {session : Session} (steady : SessionInvariant session)
    (held : session.conn.state ≠ .free) (unreset : told .reset session.history = false) :
    (told .closed session.history = true ↔ session.Complete) ∧
      (session.Complete → session.conn.state = .closed) := by
  have stands := steady.standing.stands
  rw [unreset] at stands
  obtain ⟨iff, state⟩ := stands.closed_iff held
  have complete : session.Complete ↔ told .closed session.history = true := by
    rw [iff, Session.flight, Serial.dist_eq_zero_iff]
    exact ⟨fun ⟨sent, all, fin⟩ => ⟨sent, all, fin⟩, fun ⟨sent, all, fin⟩ => ⟨sent, all, fin⟩⟩
  exact ⟨complete.symm, fun facts => state (complete.mp facts)⟩

/-- Nothing happens to a terminal connection. -/
theorem SessionStep.closed_history {k : TcpStack} {session session' : Session} {action : Action}
    (step : SessionStep k session action session') (closed : session.conn.state = .closed)
    (same : session'.opens = session.opens) : session'.history = session.history := by
  cases step with
  | opened => exact absurd same (Nat.succ_ne_self _)
  | @segment packet seg =>
      have synced : session.syncOutFlags.conn.state = .closed := by
        rw [Session.syncOutFlags_eq, closed]
        rfl
      rw [Session.processSegment, synced, Session.syncOutFlags_eq]
      rfl
  | call _ step => cases step <;> rfl
  | _ => rfl

/-- A free slot stays free until it is opened. -/
theorem SessionStep.free {k : TcpStack} {session session' : Session} {action : Action}
    (step : SessionStep k session action session') (free : session.conn.state = .free)
    (same : session'.opens = session.opens) : session'.conn.state = .free := by
  cases step with
  | opened => exact absurd same (Nat.succ_ne_self _)
  | segment _ _ live => exact absurd free live
  | freed => rfl
  | call _ step => cases step <;> exact free
  | _ => exact free

/-- What a step has added to a history tells the application an event of this type. -/
def Emits (type : TcpEventType) (session session' : Session) : Prop :=
  ∃ added, session'.history = added ++ session.history ∧ told type added = true

theorem Emits.told {type : TcpEventType} {session session' : Session}
    (emits : Emits type session session') :
    told type session'.history = true ∧ session'.history ≠ session.history := by
  obtain ⟨added, grown, new⟩ := emits
  constructor
  · rw [grown, told_append, new]
    rfl
  · intro same
    rw [grown, List.append_left_eq_self] at same
    rw [same] at new
    cases new

/-- Events of a connection are emitted only for its segments. -/
theorem SessionStep.emits {k : TcpStack} {session session' : Session} {action : Action}
    {type : TcpEventType} (step : SessionStep k session action session')
    (same : session'.opens = session.opens) (emits : Emits type session session') :
    ∃ packet seg, action = .task (.packet packet) ∧
      decode k packet.frame packet.contiguous = some (.segment seg) ∧ session.Matches seg := by
  have grown := emits.told.2
  cases step with
  | opened => exact absurd same (Nat.succ_ne_self _)
  | segment decoded named => exact ⟨_, _, rfl, decoded, named⟩
  | call _ step => cases step <;> exact absurd rfl grown
  | _ => exact absurd rfl grown

/-- Meaning of the connection state.  In every state of every run, for an accepted
connection that was not reset and whose slot is not free, the state after
`sync_out_flags` is determined by three facts.  `closed` has been told exactly when all
of them hold, and the action that told it is a segment of the connection and the one
that made all of them hold. -/
theorem state_meaning {k : TcpStack} {state : State} (reachable : Reachable k state) {i : Nat}
    (accepted : told .accepted (state.memory.session i).history = true)
    (unreset : told .reset (state.memory.session i).history = false)
    (held : (state.memory.session i).conn.state ≠ .free) :
    let session := state.memory.session i
    session.syncOutFlags.conn.state ∈
        expectedStates (hasFinSent session.out.outFlags)
          (session.conn.sndUna == session.out.sndNxt) (finConsumed session.history) ∧
      (told .closed session.history = true ↔ session.Complete) ∧
      ∀ before action, Reachable k before → Act k before action state →
        (before.memory.session i).opens = session.opens →
        (Emits .closed (before.memory.session i) session ↔
          session.Complete ∧ ¬(before.memory.session i).Complete) ∧
        (Emits .closed (before.memory.session i) session → ∃ packet seg,
          action = .task (.packet packet) ∧
          decode k packet.frame packet.contiguous = some (.segment seg) ∧
          (before.memory.session i).Matches seg) := by
  intro session
  have steady := SessionInvariant.reachable reachable i
  have iff := (steady.closed_iff held unreset).1
  refine ⟨?_, iff, ?_⟩
  · have syn : session.conn.state ≠ .synReceived := by
      intro syn
      rw [(steady.standing.unaccepted syn).2] at accepted
      cases accepted
    have stands := steady.standing.stands
    rw [unreset] at stands
    have flight : (session.conn.sndUna == session.out.sndNxt) = (session.flight == 0) := by
      rw [Bool.eq_iff_iff, beq_iff_eq, beq_iff_eq, Session.flight, Serial.dist_eq_zero_iff]
    rw [Session.syncOutFlags_eq, flight]
    exact stands.expected (TcpState.accepted_iff.mpr ⟨held, syn⟩)
  · intro before action reached act same
    have step := act.session reached.regular i
    obtain ⟨added, grown⟩ := step.history same.symm
    have heldBefore : (before.memory.session i).conn.state ≠ .free :=
      fun free => held (step.free free same.symm)
    have unresetBefore : told .reset (before.memory.session i).history = false := by
      rw [← grown, told_append, Bool.or_eq_false_iff] at unreset
      exact unreset.2
    obtain ⟨iffBefore, closed⟩ :=
      ((SessionInvariant.reachable reached i).closed_iff heldBefore unresetBefore)
    refine ⟨⟨?_, ?_⟩, step.emits same.symm⟩
    · intro emits
      obtain ⟨told, changed⟩ := emits.told
      exact ⟨iff.mp told, fun complete => changed (step.closed_history (closed complete) same.symm)⟩
    · rintro ⟨complete, incomplete⟩
      have told := iff.mpr complete
      rw [← iffBefore, Bool.not_eq_true] at incomplete
      rw [← grown, told_append, incomplete, Bool.or_false] at told
      exact ⟨added, grown.symm, told⟩

/-- The peer closes first and then acknowledges our FIN. -/
theorem state_meaning_of_last_ack :
    let receive := fun mem packet => ((process singleSlot packet).run mem).2
    let finished := receive singleSlotAccepted.memory
      (peerPacket 8 1 (finFlag ||| ackFlag) 1000 [])
    let released := (((Call.close ⟨0, 1⟩ ⟨fun _ => true, fun _ => true⟩).code singleSlot).run
      finished).2
    let session := (receive released (peerPacket 9 2 ackFlag 1000 [])).session 0
    (released.session 0).syncOutFlags.conn.state = .lastAck ∧
      session.conn.state = .closed ∧ session.Complete := by
  intro receive finished released session
  have finishedReached := singleSlotAccepted_reachable.step
    (.task (.packet (peerPacket 8 1 (finFlag ||| ackFlag) 1000 [])) rfl) trivial
  have releasedReached := finishedReached.step
    (.call (.close ⟨0, 1⟩ ⟨fun _ => true, fun _ => true⟩)) trivial
  have reached := releasedReached.step
    (.task (.packet (peerPacket 9 2 ackFlag 1000 [])) rfl) trivial
  have closed : told .closed session.history = true := by decide
  have meaning := state_meaning reached (i := 0) (by decide) (by decide) (by decide)
  exact ⟨by decide, by decide, meaning.2.1.mp closed⟩

end DpdkWrapper.Tcp
