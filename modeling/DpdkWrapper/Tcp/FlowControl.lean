import DpdkWrapper.Tcp.OutboundStream
import DpdkWrapper.Tcp.States

/-!
# Flow control

The send numbers of a connection are unbounded offsets from `iss`: `sentOffset` counts
everything that has been sent, `ackedOffset` what of it has been acknowledged.  They
are never further apart than a 16-bit window and our FIN, so the 32-bit arithmetic of
`window_space` computes with them exactly, however much has been transferred.

`Counted` and `InWindow` are the invariants of single sessions.  Segments only move the
acknowledged end, calls only the sent one, and a call moves it no further than the window that
it has read.  `flow_control` states the result for whole runs: what is recorded, what
`send_space` returns and what `send` may take.
-/

namespace DpdkWrapper.Tcp

open Wire

namespace Session

variable (session : Session) (seg : Segment)

/-- The offset of `snd_nxt`: our SYN, the bytes accepted by `send`, and our FIN. -/
def sentOffset : Nat :=
  1 + (acceptedBytes session.connId session.sends).length + finCount session.out.outFlags

/-- The offset of `snd_una`. -/
def ackedOffset : Nat :=
  session.sentOffset - session.flight

/-! ## What a segment does to the send numbers -/

theorem finishAck_numbers : (session.finishAck seg).2.conn.numbers = session.conn.numbers := by
  unfold finishAck
  split
  · split <;> rfl
  · rfl

end Session

theorem Session.flight_eq {session session' : Session}
    (numbers : session'.conn.numbers = session.conn.numbers) (out : session'.out = session.out) :
    session'.flight = session.flight := by
  have una : session'.conn.sndUna = session.conn.sndUna :=
    congrArg TcpConnection.Numbers.sndUna numbers
  rw [flight, una, out, flight]

namespace StateConsistent

variable {session : Session} {seg : Segment}

/-- The end of the handshake acknowledges our SYN. -/
theorem establish_flight (standing : StateConsistent session)
    (state : session.conn.state = .synReceived) (expected : seg.ack = session.conn.iss + 1) :
    (session.establish seg).flight ≤ session.flight := by
  obtain ⟨una, _⟩ := standing.unaccepted state
  have stands := standing.stands
  rw [state] at stands
  have step : Serial.dist session.conn.sndUna seg.ack = 1 := by
    rw [una, expected]
    exact Serial.dist_add_ofNat session.conn.iss (by omega : 1 < 2 ^ 32)
  have ahead : 1 ≤ session.flight := Nat.le_trans (Nat.le_add_left 1 _) stands.1
  have rest : Serial.dist seg.ack session.out.sndNxt = session.flight - 1 := by
    rw [← step]
    refine Serial.dist_sub_dist ?_
    rw [step]
    exact ahead
  change Serial.dist seg.ack session.out.sndNxt ≤ _
  rw [rest]
  exact Nat.sub_le _ _

/-- A segment only acknowledges. -/
theorem processSegment_flight (k : TcpStack) (standing : StateConsistent session) :
    (session.processSegment k seg).flight ≤ session.flight := by
  refine (Session.processSegment_keeps
    (fun later => StateConsistent later ∧ later.flight ≤ session.flight) k
    ⟨standing, Nat.le_refl _⟩
    (fun {first _} ⟨standing, fewer⟩ move => ⟨standing.control move, ?_⟩)
    fun ⟨standing, fewer⟩ move => ⟨standing.data move, ?_⟩).2
  · cases move with
    | establish early expected => exact Nat.le_trans (standing.establish_flight early expected) fewer
    | ack accepted synced valid =>
        have recorded := record (standing.flow (TcpState.accepted_iff.mp accepted).1) valid
        rw [Session.flight_eq ((first.record seg).finishAck_numbers seg)
          ((first.record seg).finishAck_continues seg).out]
        exact Nat.le_trans recorded.fewer fewer
    | _ => exact fewer
  · cases move <;> exact fewer

end StateConsistent

/-! ## Offsets -/

/-- Everything in flight has been sent. -/
def Session.Counted (session : Session) : Prop :=
  session.conn.state ≠ .free → session.flight ≤ session.sentOffset

section Steps

variable {k : TcpStack} {session session' : Session} {action : Action}

theorem Session.sentOffset_eq (slot : session'.slot = session.slot)
    (generation : session'.conn.generation = session.conn.generation)
    (sends : session'.sends = session.sends)
    (fin : hasFinSent session'.out.outFlags = hasFinSent session.out.outFlags) :
    session'.sentOffset = session.sentOffset := by
  rw [sentOffset, sentOffset, connId, connId, slot, generation, sends, finCount, finCount, fin]

/-- A segment sends nothing. -/
theorem Session.processSegment_sentOffset (session : Session) (seg : Segment) (k : TcpStack) :
    (session.processSegment k seg).sentOffset = session.sentOffset := by
  have continues := session.processSegment_continues seg k
  exact sentOffset_eq continues.slot
    (congrArg TcpConnection.Identity.generation continues.identity) continues.sends
    (by rw [continues.out])

/-- A call moves both ends of what is in flight by the same amount. -/
theorem CallStep.flight {call : Call} (step : CallStep session call session')
    (flow : Flow session.conn.numbers session.out) :
    ∃ more, session'.flight = session.flight + more ∧
      session'.sentOffset = session.sentOffset + more := by
  cases step with
  | same => exact ⟨0, rfl, rfl⟩
  | refused conn bytes =>
      refine ⟨0, rfl, ?_⟩
      simp [Session.sentOffset, Session.connId, TxEntry.accepted]
  | @sent conn bytes count taken env named sendable inside window carries =>
      refine ⟨count, (flow.sent sendable.finSent window).2, ?_⟩
      subst named
      have length : (bytes.take count).length = count := by
        rw [List.length_take, Nat.min_eq_left inside]
      simp only [Session.sentOffset, Session.connId, acceptedBytes_cons,
        acceptedBytes_transmitted, TxEntry.accepted, if_true, List.length_append, length]
      omega
  | @finished conn taken env named sendable isFin single =>
      refine ⟨1, (flow.finished sendable.finSent).2, ?_⟩
      simp only [Session.sentOffset, Session.connId, acceptedBytes_transmitted,
        finCount_eq_zero sendable.finSent]
      rw [finCount_eq_one (by simp)]
  | released env named held done =>
      refine ⟨0, rfl, ?_⟩
      exact Session.sentOffset_eq rfl rfl rfl (hasFinSent_or_released _)

/-- The step lemma: no more is in flight than has been sent. -/
theorem SessionStep.counted (step : SessionStep k session action session')
    (steady : SessionInvariant session) (counted : session.Counted) : session'.Counted := by
  cases step with
  | idle => exact counted
  | @opened packet seg peerMss =>
      intro _
      have ahead : Serial.dist (packet.rand.setWidth 32) (packet.rand.setWidth 32 + 1) = 1 :=
        Serial.dist_add_ofNat (packet.rand.setWidth 32) (by omega : 1 < 2 ^ 32)
      change Serial.dist (packet.rand.setWidth 32) (packet.rand.setWidth 32 + 1) ≤ _
      rw [ahead, Session.sentOffset, Nat.add_assoc]
      exact Nat.le_add_right 1 _
  | @segment packet seg decoded named live =>
      intro _
      rw [session.processSegment_sentOffset seg k]
      exact Nat.le_trans (steady.standing.processSegment_flight k) (counted live)
  | freed => exact fun held => absurd rfl held
  | call opened called =>
      intro held
      have same : session'.conn = session.conn := by cases called <;> rfl
      rw [same] at held
      obtain ⟨more, flight, sent⟩ := called.flight (steady.standing.flow held)
      rw [flight, sent]
      exact Nat.add_le_add_right (counted held) more
  | stray out sends unopened => exact fun held => absurd (steady.unopened unopened) held

/-- `snd_una` never moves back. -/
theorem SessionStep.ackedOffset (step : SessionStep k session action session')
    (steady : SessionInvariant session) (same : session'.opens = session.opens)
    (held : session'.conn.state ≠ .free) : session.ackedOffset ≤ session'.ackedOffset := by
  have heldBefore : session.conn.state ≠ .free := fun free => held (step.free free same)
  cases step with
  | idle => exact Nat.le_refl _
  | opened => exact absurd same (Nat.succ_ne_self _)
  | @segment packet seg =>
      rw [Session.ackedOffset, Session.ackedOffset, session.processSegment_sentOffset seg k]
      exact Nat.sub_le_sub_left (steady.standing.processSegment_flight k) _
  | freed => exact absurd rfl held
  | call opened called =>
      obtain ⟨more, flight, sent⟩ := called.flight (steady.standing.flow heldBefore)
      rw [Session.ackedOffset, Session.ackedOffset, flight, sent, Nat.add_sub_add_right]
  | stray out sends unopened => exact absurd (steady.unopened unopened) heldBefore

end Steps

/-! ## Runs -/

/-- The send numbers are offsets from `iss` that are at most a window and our FIN
apart, the published window is the recorded one, and `window_space` is the room that
the offsets leave. -/
structure Session.InWindow (session : Session) : Prop where
  una : session.conn.sndUna = session.conn.iss + BitVec.ofNat 32 session.ackedOffset
  nxt : session.out.sndNxt = session.conn.iss + BitVec.ofNat 32 session.sentOffset
  order : session.ackedOffset ≤ session.sentOffset
  bound : session.sentOffset ≤ session.ackedOffset + 65535 + finCount session.out.outFlags
  window : session.conn.sendWindow = packWindow session.conn.sndUna session.conn.sndWnd
  space : windowSpace session.conn.sendWindow session.out.sndNxt =
    session.ackedOffset + session.conn.sndWnd.toNat - session.sentOffset

/-- What is in flight fits the window, by the numbers that the receiver has published. -/
theorem Session.inWindow {session : Session} (flow : Flow session.conn.numbers session.out)
    (counted : session.flight ≤ session.sentOffset) (outbox : session.HasOutbox) :
    session.InWindow := by
  obtain ⟨data, fin, outbox⟩ := outbox
  have nxt : session.out.sndNxt = session.conn.iss + BitVec.ofNat 32 session.sentOffset := by
    rw [outbox.sndNxt, sentOffset, BitVec.ofNat_add, BitVec.ofNat_add, ← BitVec.add_assoc,
      ← BitVec.add_assoc, finCount]
    split <;> rfl
  have split : session.ackedOffset + session.flight = session.sentOffset :=
    Nat.sub_add_cancel counted
  have near := flow.flight
  constructor
  case una =>
    have ahead : session.conn.sndUna + BitVec.ofNat 32 session.flight = session.out.sndNxt :=
      Serial.add_dist session.conn.sndUna session.out.sndNxt
    rw [nxt, ← split, BitVec.ofNat_add, ← BitVec.add_assoc] at ahead
    exact (BitVec.add_left_inj _).mp ahead
  case nxt => exact nxt
  case order => exact Nat.sub_le _ _
  case bound =>
    change session.flight ≤ _ at near
    omega
  case window => exact flow.window
  case space =>
    have window : session.conn.sendWindow =
        packWindow session.conn.sndUna session.conn.sndWnd := flow.window
    have room : windowSpace (packWindow session.conn.sndUna session.conn.sndWnd)
        session.out.sndNxt = session.conn.sndWnd.toNat - session.flight :=
      windowSpace_packWindow flow.wnd flow.le
    rw [window, room]
    omega

/-- What a `send` hands over lies within the published window. -/
theorem SessionStep.withinWindow {k : TcpStack} {session session' : Session} {conn : ConnId}
    {bytes : List Byte} {env : SendEnv}
    (step : SessionStep k session (.call (.send conn bytes env)) session')
    (inWindow : session.InWindow) (opened : 0 < session.opens) :
    ∃ taken, segments session'.sends = segments session.sends ++ taken ∧
      ∀ segment ∈ taken, ∃ offset, session.sentOffset ≤ offset ∧
        segment.seq = session.conn.iss + BitVec.ofNat 32 offset ∧
        offset + segment.payload.length ≤
          session.ackedOffset + (windowSize session.conn.sendWindow).toNat := by
  have nothing : ∀ segment ∈ ([] : List TxSegment), ∃ offset, session.sentOffset ≤ offset ∧
      segment.seq = session.conn.iss + BitVec.ofNat 32 offset ∧
      offset + segment.payload.length ≤
        session.ackedOffset + (windowSize session.conn.sendWindow).toNat :=
    fun _ member => absurd member List.not_mem_nil
  cases step with
  | idle => exact ⟨[], (List.append_nil _).symm, nothing⟩
  | stray _ _ unopened => exact absurd unopened (Nat.ne_of_gt opened)
  | call _ called =>
      cases called with
      | same => exact ⟨[], (List.append_nil _).symm, nothing⟩
      | refused => exact ⟨[], by simp [TxEntry.segment], nothing⟩
      | @sent _ _ count taken _ named sendable inside window carries =>
          refine ⟨taken, by simp [segments_transmitted, TxEntry.segment], ?_⟩
          intro segment member
          obtain ⟨off, seq, fits⟩ := carries.within segment member
          refine ⟨session.sentOffset + off, Nat.le_add_right _ _, ?_, ?_⟩
          · rw [seq, inWindow.nxt, BitVec.ofNat_add, BitVec.add_assoc]
          · have size : windowSize session.conn.sendWindow = session.conn.sndWnd := by
              rw [inWindow.window, windowSize_packWindow]
            have positive : 0 < count := by
              cases carries with
              | nil => exact absurd member List.not_mem_nil
              | cons positive _ _ _ _ _ tail => exact Nat.lt_of_lt_of_le (by omega) tail.le
            rw [inWindow.space] at window
            rw [size]
            omega

/-- In every reachable state, what a connection has in flight is within its window. -/
theorem Reachable.inWindow {k : TcpStack} {state : State} (reachable : Reachable k state)
    {i : Nat} (held : (state.memory.session i).conn.state ≠ .free) :
    (state.memory.session i).InWindow := by
  have steady := SessionInvariant.reachable reachable i
  have opened : 0 < (state.memory.session i).opens :=
    Nat.pos_of_ne_zero fun never => held (steady.unopened never)
  obtain ⟨_, kept⟩ := Run.session i
    (fun session => SessionInvariant session ∧ session.Counted ∧
      (0 < session.opens → session.HasOutbox))
    reachable (Regular.initial k)
    ⟨.of_free rfl, fun live => absurd rfl live, fun never => absurd never (Nat.lt_irrefl 0)⟩
    fun _ _ _ _ ⟨steady, counted, outbox⟩ step =>
      ⟨steady.step step, step.counted steady counted, step.hasOutbox outbox⟩
  obtain ⟨_, counted, outbox⟩ := kept
  exact Session.inWindow (steady.standing.flow held) (counted held) (outbox opened)

/-- While a slot holds a connection, what it has acknowledged only grows. -/
theorem Run.ackedOffset {k : TcpStack} {ok : State → Action → Prop} {state later : State}
    (run : Run k ok state later) (reachable : Reachable k state) {i : Nat}
    (same : (later.memory.session i).opens = (state.memory.session i).opens)
    (held : (later.memory.session i).conn.state ≠ .free) :
    (state.memory.session i).ackedOffset ≤ (later.memory.session i).ackedOffset := by
  set start := state.memory.session i
  have kept := run.session i
    (fun session => SessionInvariant session ∧ start.opens ≤ session.opens ∧
      (session.opens = start.opens → session.conn.state ≠ .free →
        start.ackedOffset ≤ session.ackedOffset))
    reachable.regular ⟨SessionInvariant.reachable reachable i, Nat.le_refl _, fun _ _ =>
      Nat.le_refl _⟩
    (by
      rintro _ _ session' _ ⟨steady, known, grown⟩ step
      refine ⟨steady.step step, Nat.le_trans known step.opens_le, ?_⟩
      intro same held
      have still := Nat.le_antisymm (same ▸ step.opens_le) known
      have kept : session'.opens = _ := same.trans still.symm
      exact Nat.le_trans (grown still fun free => held (step.free free kept))
        (step.ackedOffset steady kept held))
  exact kept.2.2.2 same held

/-- Flow control.  In every state of every run, the send numbers of an accepted
connection are offsets from `iss` within a window of each other, and `window_space`
computes the room between them.  What is acknowledged never shrinks, and every byte
that a `send` hands over has an offset from `snd_nxt` on, within the window that is
published when the call starts. -/
theorem flow_control {k : TcpStack} {state : State} (reachable : Reachable k state) {i : Nat}
    (accepted : (state.memory.rx.slots i).state.accepted = true) :
    let session := state.memory.session i
    session.InWindow ∧
      (∀ later, Run k (fun _ _ => True) state later →
        (later.memory.session i).opens = session.opens →
        (later.memory.rx.slots i).state ≠ .free →
        session.ackedOffset ≤ (later.memory.session i).ackedOffset) ∧
      ∀ conn bytes env next, Act k state (.call (.send conn bytes env)) next →
        ∃ taken, segments (next.memory.session i).sends = segments session.sends ++ taken ∧
          ∀ segment ∈ taken, ∃ offset, session.sentOffset ≤ offset ∧
            segment.seq = session.conn.iss + BitVec.ofNat 32 offset ∧
            offset + segment.payload.length ≤
              session.ackedOffset + (windowSize session.conn.sendWindow).toNat := by
  intro session
  obtain ⟨held, _⟩ := TcpState.accepted_iff.mp accepted
  have inWindow : session.InWindow := reachable.inWindow held
  have opened : 0 < session.opens := Nat.pos_of_ne_zero fun never =>
    held ((SessionInvariant.reachable reachable i).unopened never)
  refine ⟨inWindow, fun later run same stillHeld => run.ackedOffset reachable same stillHeld, ?_⟩
  intro conn bytes env next act
  exact (act.session reachable.regular i).withinWindow inWindow opened

/-- Three bytes against a window of a thousand. -/
theorem flow_control_of_three_bytes :
    let call := Call.send ⟨0, 1⟩ [1, 2, 3] ⟨fun _ _ => true, fun _ => 1⟩
    let session := (((call.code singleSlot).run singleSlotAccepted.memory).2).session 0
    session.sentOffset = 4 ∧ session.ackedOffset = 1 ∧ session.InWindow := by
  intro call session
  have reached : Reachable singleSlot
      ⟨.polling 2, ((call.code singleSlot).run singleSlotAccepted.memory).2⟩ :=
    singleSlotAccepted_reachable.step (.call call) trivial
  exact ⟨by decide, by decide, (flow_control reached (i := 0) (by decide)).1⟩

end DpdkWrapper.Tcp
