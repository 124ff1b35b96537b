import DpdkWrapper.Tcp.History

/-!
# The inbound byte stream

A peer that sends slices of one byte stream, in any order and as often as it
likes, has a prefix of that stream delivered to the application.  Sequence
numbers wrap; the stream may be longer than the sequence space.

`Follows` relates a session to the stream: what has been delivered is its beginning, and
`rcv_nxt` is `irs + 1` plus its length, and one more after the FIN.  A segment is trimmed at
`rcv_nxt` before it is delivered, and one that is ahead of it is dropped.
-/

namespace DpdkWrapper.Tcp

open Wire

/-- The peer's FIN has not been consumed in these states. -/
def TcpState.receiving (state : TcpState) : Bool :=
  state == .synReceived || state.canReceive

/-- The states that a consumed FIN leads to before the connection is terminal. -/
def TcpState.afterFin (state : TcpState) : Bool :=
  state == .closeWait || state == .closing || state == .lastAck

/-! ## Steps that receive nothing -/

/-- Nothing was received, and the connection has not begun to receive again. -/
structure SameInbox (session session' : Session) : Prop where
  rcvNxt : session'.conn.rcvNxtLocal = session.conn.rcvNxtLocal
  delivered : delivered session'.history = delivered session.history
  fin : finConsumed session'.history = finConsumed session.history
  peerClosed : told .peerClosed session'.history = told .peerClosed session.history
  receiving : session'.conn.state.receiving = true → session.conn.state.receiving = true
  afterFin : session'.conn.state.afterFin = true → session.conn.state.afterFin = true

namespace SameInbox

variable {first second third : Session}

theorem refl (session : Session) : SameInbox session session :=
  ⟨rfl, rfl, rfl, rfl, id, id⟩

theorem trans (left : SameInbox first second) (right : SameInbox second third) :
    SameInbox first third where
  rcvNxt := right.rcvNxt.trans left.rcvNxt
  delivered := right.delivered.trans left.delivered
  fin := right.fin.trans left.fin
  peerClosed := right.peerClosed.trans left.peerClosed
  receiving later := left.receiving (right.receiving later)
  afterFin later := left.afterFin (right.afterFin later)

end SameInbox

namespace Session

variable (session : Session) (seg : Segment)

/-- The end of a connection delivers nothing. -/
theorem terminate_sameInbox {why : TcpEventType} (terminal : why = .closed ∨ why = .reset) :
    SameInbox session (session.terminate why) := by
  rcases terminal with rfl | rfl
  all_goals
    constructor
    case rcvNxt => rfl
    case receiving => rintro ⟨⟩
    case afterFin => rintro ⟨⟩
    all_goals
      simp [terminate, push, note, update, makeEvent, RxEntry.data]

theorem syncOutFlags_sameInbox : SameInbox session session.syncOutFlags := by
  unfold syncOutFlags
  split
  · cases state : session.conn.state <;>
      exact ⟨by simp [update, state], rfl, rfl, rfl,
        by simp [update, state, TcpState.receiving, TcpState.canReceive],
        by simp [update, state, TcpState.afterFin]⟩
  · exact .refl session

theorem record_sameInbox : SameInbox session (session.record seg) := by
  obtain ⟨una, wnd, wl1, wl2, same⟩ := recordAck_eq seg session.conn
  constructor
  all_goals simp only [record, update, same]
  · split <;> rfl
  · split <;> exact fun receiving => receiving
  · split <;> exact fun afterFin => afterFin

theorem finishAck_sameInbox : SameInbox session (session.finishAck seg).2 := by
  unfold finishAck
  split
  · split
    · rename_i state
      exact ⟨rfl, rfl, rfl, rfl, fun _ => by rw [state]; rfl, by rintro ⟨⟩⟩
    · exact session.terminate_sameInbox (Or.inl rfl)
    · exact session.terminate_sameInbox (Or.inl rfl)
    · exact .refl session
  · exact .refl session

theorem refuse_sameInbox : SameInbox session
    (session.note (.ackRefused session.slot seg.ack session.out.sndNxt)) :=
  ⟨rfl, by simp [note, RxEntry.data], by simp [note], by simp [note], id, id⟩

theorem processAck_sameInbox : SameInbox session (session.processAck seg).2 := by
  unfold processAck
  split
  · exact session.refuse_sameInbox seg
  · exact (session.record_sameInbox seg).trans (finishAck_sameInbox _ seg)

theorem establish_sameInbox (state : session.conn.state = .synReceived) :
    SameInbox session (session.establish seg) where
  rcvNxt := rfl
  delivered := by simp [establish, push, note, setState, update, makeEvent, RxEntry.data]
  fin := by simp [establish, push, note, setState, update]
  peerClosed := by simp [establish, push, note, setState, update, makeEvent]
  receiving _ := by rw [state]; rfl
  afterFin := by rintro ⟨⟩

end Session

/-- Before its data is looked at, a segment delivers nothing. -/
theorem ControlMove.sameInbox {seg : Segment} {session session' : Session}
    (move : ControlMove seg session session') : SameInbox session session' := by
  cases move with
  | sync => exact session.syncOutFlags_eq ▸ session.syncOutFlags_sameInbox
  | abandon => exact ⟨rfl, rfl, rfl, rfl, by rintro ⟨⟩, by rintro ⟨⟩⟩
  | establish early => exact session.establish_sameInbox seg early
  | reset => exact session.terminate_sameInbox (Or.inr rfl)
  | refuse => exact session.refuse_sameInbox seg
  | ack => exact (session.record_sameInbox seg).trans (Session.finishAck_sameInbox _ seg)

/-! ## What the peer sends -/

/-- A segment carries the slice of the stream at an offset, and a FIN only at the
end of the stream. -/
structure Slice (stream : List Byte) (irs : BitVec 32) (offset : Nat) (seg : Segment) :
    Prop where
  seq : seg.seq = irs + 1 + BitVec.ofNat 32 offset
  inside : offset + seg.payload.length ≤ stream.length
  payload : seg.payload = (stream.drop offset).take seg.payload.length
  fin : seg.has finFlag = true → offset + seg.payload.length = stream.length

/-- The connection has received the first `count` bytes of the stream. -/
structure Follows (stream : List Byte) (session : Session) (count : Nat) : Prop where
  inside : count ≤ stream.length
  delivered : delivered session.history = stream.take count
  rcvNxt : session.conn.rcvNxtLocal = session.conn.irs + 1 + BitVec.ofNat 32 count +
    if finConsumed session.history then 1 else 0
  fin : finConsumed session.history = true →
    count = stream.length ∧ session.conn.state.receiving = false
  seen : told .peerClosed session.history = true ∨ session.conn.state.afterFin = true →
    finConsumed session.history = true

namespace Follows

variable {stream : List Byte} {session session' : Session} {count offset : Nat}
  {seg : Segment}

/-- Only what is received counts. -/
theorem congr (follows : Follows stream session count) (same : SameInbox session session')
    (irs : session'.conn.irs = session.conn.irs) : Follows stream session' count where
  inside := follows.inside
  delivered := same.delivered.trans follows.delivered
  rcvNxt := by rw [same.rcvNxt, same.fin, irs]; exact follows.rcvNxt
  fin := by
    rw [same.fin]
    intro consumed
    obtain ⟨complete, stopped⟩ := follows.fin consumed
    refine ⟨complete, ?_⟩
    cases receiving : session'.conn.state.receiving with
    | false => rfl
    | true => rw [same.receiving receiving] at stopped; cases stopped
  seen := by
    rw [same.peerClosed, same.fin]
    rintro (closed | afterFin)
    · exact follows.seen (Or.inl closed)
    · exact follows.seen (Or.inr (same.afterFin afterFin))

theorem rcvNxt_eq (follows : Follows stream session count)
    (open_ : finConsumed session.history = false) :
    session.conn.rcvNxtLocal = session.conn.irs + 1 + BitVec.ofNat 32 count := by
  have next := follows.rcvNxt
  rw [open_] at next
  simpa using next

theorem notConsumed (follows : Follows stream session count)
    (receiving : session.conn.state.receiving = true) :
    finConsumed session.history = false := by
  cases consumed : finConsumed session.history with
  | false => rfl
  | true => rw [(follows.fin consumed).2] at receiving; cases receiving

end Follows

theorem Slice.end_eq {stream : List Byte} {irs : BitVec 32} {offset : Nat} {seg : Segment}
    (slice : Slice stream irs offset seg) :
    seg.seq + seg.len = irs + 1 + BitVec.ofNat 32 (offset + seg.payload.length) := by
  rw [slice.seq, Segment.len, BitVec.add_assoc, ← BitVec.ofNat_add]

/-- The unread part of a slice continues the prefix. -/
theorem take_append_slice {stream payload : List Byte} {offset count : Nat}
    (before : offset ≤ count) (after : count ≤ offset + payload.length)
    (slice : payload = (stream.drop offset).take payload.length) :
    stream.take count ++ payload.drop (count - offset) =
      stream.take (offset + payload.length) := by
  have rest : payload.drop (count - offset) =
      (stream.drop count).take (offset + payload.length - count) := by
    rw [slice, List.drop_take, List.drop_drop, ← slice]
    congr 1
    · omega
    · congr 1
      omega
  rw [rest, ← List.take_add]
  congr 1
  omega

/-! ## Delivery -/

namespace Follows

variable {stream : List Byte} {session : Session} {count offset : Nat} {seg : Segment}

/-- In-order delivery extends the prefix to the end of the slice, if that is new. -/
theorem deliver (follows : Follows stream session count)
    (unread : finConsumed session.history = false)
    (slice : Slice stream session.conn.irs offset seg) (before : offset ≤ count)
    (near : 2 * (count - offset) < 2 ^ 32) :
    Follows stream (session.deliver seg) (max count (offset + seg.payload.length)) ∧
      finConsumed (session.deliver seg).history = false := by
  have bound := seg.payload_lt
  rw [Session.deliver, slice.end_eq, follows.rcvNxt_eq unread, slice.seq]
  by_cases more : count < offset + seg.payload.length
  · have newer : seqGt
        (session.conn.irs + 1 + BitVec.ofNat 32 (offset + seg.payload.length))
        (session.conn.irs + 1 + BitVec.ofNat 32 count) = true :=
      Serial.lt_offsets _ more (by omega)
    have skipped : (session.conn.irs + 1 + BitVec.ofNat 32 count -
        (session.conn.irs + 1 + BitVec.ofNat 32 offset)).toNat = count - offset :=
      Serial.dist_offsets _ before (by omega)
    rw [if_pos newer, skipped, Nat.max_eq_right (Nat.le_of_lt more)]
    refine ⟨⟨slice.inside, ?_, ?_, ?_, ?_⟩, ?_⟩
    · simp only [Session.update, Session.push, Session.note, delivered_cons, RxEntry.data,
        Session.makeEvent, if_true, follows.delivered]
      exact take_append_slice before (Nat.le_of_lt more) slice.payload
    · simp [Session.update, Session.push, Session.note, unread]
    · simp [Session.update, Session.push, Session.note, unread]
    · simpa [Session.update, Session.push, Session.note, Session.makeEvent] using follows.seen
    · simp [Session.update, Session.push, Session.note, unread]
  · have older : seqGt
        (session.conn.irs + 1 + BitVec.ofNat 32 (offset + seg.payload.length))
        (session.conn.irs + 1 + BitVec.ofNat 32 count) = false :=
      Serial.not_lt_offsets _ (Nat.not_lt.mp more) (by omega)
    rw [older, if_neg Bool.false_ne_true, Nat.max_eq_left (Nat.not_lt.mp more)]
    exact ⟨follows, unread⟩

/-- The FIN at the end of the stream. -/
theorem consumeFin (follows : Follows stream session stream.length)
    (unread : finConsumed session.history = false)
    (receives : session.conn.state.canReceive = true) :
    Follows stream session.consumeFin stream.length := by
  have next := follows.rcvNxt_eq unread
  cases state : session.conn.state with
  | established | finWait1 | finWait2 =>
      constructor
      case inside => exact Nat.le_refl _
      all_goals
        simp [Session.consumeFin, state, Session.takeFin, Session.setState,
          Session.terminate, Session.update, Session.note, Session.push, Session.makeEvent,
          RxEntry.data, follows.delivered, next, TcpState.receiving, TcpState.canReceive]
  | _ => rw [state] at receives; cases receives

theorem publishRcvNxt (follows : Follows stream session count) :
    Follows stream session.publishRcvNxt count :=
  follows.congr
    ⟨rfl, rfl, rfl, rfl, fun receiving => receiving, fun afterFin => afterFin⟩ rfl

/-- A segment that is not ahead is trimmed, and its FIN is taken at the end. -/
theorem accept (follows : Follows stream session count)
    (receives : session.conn.state.canReceive = true)
    (slice : Slice stream session.conn.irs offset seg) (before : offset ≤ count)
    (near : 2 * (count - offset) < 2 ^ 32) :
    ∃ count', Follows stream (session.accept seg) count' := by
  have receiving : session.conn.state.receiving = true := by
    rw [TcpState.receiving, receives, Bool.or_true]
  obtain ⟨delivered, unread⟩ :=
    follows.deliver (follows.notConsumed receiving) slice before near
  have sameState : (session.deliver seg).conn.state = session.conn.state := by
    unfold Session.deliver
    split <;> rfl
  rw [Session.accept]
  split
  · rename_i fin
    have atEnd := slice.fin (Bool.and_eq_true_iff.mp fin).1
    have complete : max count (offset + seg.payload.length) = stream.length := by
      rw [atEnd]
      exact Nat.max_eq_right follows.inside
    rw [complete] at delivered
    exact ⟨_, (delivered.consumeFin unread (by rw [sameState]; exact receives)).publishRcvNxt⟩
  · exact ⟨_, delivered.publishRcvNxt⟩

/-- A slice within half the sequence space of the received prefix extends it, or
changes nothing. -/
theorem processData (follows : Follows stream session count)
    (slice : Slice stream session.conn.irs offset seg) (notBehind : count ≤ offset + 2 ^ 31)
    (notAhead : offset ≤ count + 2 ^ 31) :
    ∃ count', Follows stream (session.processData seg) count' := by
  rw [Session.processData]
  split
  · exact ⟨_, follows⟩
  · rename_i receives
    have receives : session.conn.state.canReceive = true := by simpa using receives
    have receiving : session.conn.state.receiving = true := by
      rw [TcpState.receiving, receives, Bool.or_true]
    split
    · exact ⟨_, follows⟩
    · split
      · exact ⟨_, follows⟩
      · rename_i inOrder
        rw [follows.rcvNxt_eq (follows.notConsumed receiving), slice.seq, Bool.not_eq_true]
          at inOrder
        have before : offset ≤ count := by
          by_contra ahead
          have later := Serial.lt_offsets (session.conn.irs + 1) (Nat.not_le.mp ahead)
            (by omega)
          rw [seqGt, seqLt, later] at inOrder
          cases inOrder
        rw [seqGt, seqLt, Serial.not_lt_iff, Serial.dist_offsets _ before (by omega)] at inOrder
        exact follows.accept receives slice before inOrder

theorem length_delivered (follows : Follows stream session count) :
    (Tcp.delivered session.history).length = count := by
  rw [follows.delivered, List.length_take, Nat.min_eq_left follows.inside]

end Follows

/-- If a segment can carry data at all, it is a slice within half the sequence
space of what has been received. -/
def SendsSlice (stream : List Byte) (session : Session) (seg : Segment) : Prop :=
  seg.has ackFlag = true → seg.has synFlag = false → seg.has rstFlag = false →
    ∃ offset, Slice stream session.conn.irs offset seg ∧
      (delivered session.history).length ≤ offset + 2 ^ 31 ∧
      offset ≤ (delivered session.history).length + 2 ^ 31

namespace Follows

variable {stream : List Byte} {session session' : Session} {count : Nat} {seg : Segment}

/-- `process_data` after steps that have received nothing. -/
theorem receive (follows : Follows stream session count)
    (sends : SendsSlice stream session seg) (same : SameInbox session session')
    (continues : Continues session session') (plain : Plain seg) :
    ∃ count', Follows stream (session'.processData seg) count' := by
  obtain ⟨offset, slice, notBehind, notAhead⟩ := sends plain.ack plain.syn plain.rst
  rw [follows.length_delivered] at notBehind notAhead
  rw [← continues.irs] at slice
  exact (follows.congr same continues.irs).processData slice notBehind notAhead

/-- The step lemma: what has been delivered stays a beginning of the peer's stream. -/
theorem processSegment (k : TcpStack) (follows : Follows stream session count)
    (sends : SendsSlice stream session seg) :
    ∃ count', Follows stream (session.processSegment k seg) count' := by
  obtain ⟨later, moves, same | ⟨plain, same⟩⟩ := session.processSegment_moves seg k
  all_goals
    have inbox := Session.control_keeps (SameInbox session) moves (.refl session)
      fun inbox move => inbox.trans move.sameInbox
    have continues := Session.control_keeps (Continues session) moves (.refl session)
      fun continues move => continues.trans move.continues
    rw [same]
  · exact ⟨_, follows.congr inbox continues.irs⟩
  · exact follows.receive sends inbox continues plain

end Follows

/-! ## Runs -/

/-- What is known of a slot's `n`-th connection, whether it still has the slot or
not. -/
structure Received (stream : List Byte) (irs : BitVec 32) (n : Nat) (session : Session) :
    Prop where
  known : n ≤ session.opens
  prefixOf : ∃ count, count ≤ stream.length ∧
    delivered (session.epoch n) = stream.take count ∧
    (told .peerClosed (session.epoch n) = true ∨ finConsumed (session.epoch n) = true →
      count = stream.length) ∧
    (session.opens = n → session.conn.irs = irs ∧ Follows stream session count)

/-- While a slot's `n`-th connection has the slot, segments for it carry slices. -/
def PeerSends (k : TcpStack) (stream : List Byte) (i n : Nat) (state : State)
    (action : Action) : Prop :=
  ∀ packet seg, action = .task (.packet packet) →
    decode k packet.frame packet.contiguous = some (.segment seg) →
    (state.memory.session i).opens = n → (state.memory.session i).Matches seg →
    SendsSlice stream (state.memory.session i) seg

namespace Received

variable {stream : List Byte} {irs : BitVec 32} {n : Nat} {session : Session}

theorem of_follows {count : Nat} (current : session.opens = n)
    (same : session.conn.irs = irs) (follows : Follows stream session count) :
    Received stream irs n session where
  known := Nat.le_of_eq current.symm
  prefixOf := by
    rw [← current, session.epoch_opens]
    refine ⟨count, follows.inside, follows.delivered, ?_, fun _ => ⟨same, follows⟩⟩
    rintro (closed | consumed)
    · exact (follows.fin (follows.seen (Or.inl closed))).1
    · exact (follows.fin consumed).1

/-- A new connection has received nothing. -/
theorem opened (k : TcpStack) (seg : Segment) (peerMss : BitVec 16) (rand : BitVec 64) :
    Received stream seg.seq (session.opens + 1) (session.openFor k seg peerMss rand) := by
  have follows : Follows stream (session.openFor k seg peerMss rand) 0 :=
    ⟨Nat.zero_le _, rfl, by simp [Session.openFor, initialized], by rintro ⟨⟩, by
      rintro (closed | afterFin)
      · cases closed
      · cases afterFin⟩
  exact of_follows rfl rfl follows

/-- Tasks and calls, as far as the session sees them. -/
theorem step {k : TcpStack} {action : Action} {session' : Session}
    (received : Received stream irs n session)
    (step : SessionStep k session action session')
    (sends : ∀ packet seg, action = .task (.packet packet) →
      decode k packet.frame packet.contiguous = some (.segment seg) →
      session.opens = n → session.Matches seg → SendsSlice stream session seg) :
    Received stream irs n session' := by
  obtain ⟨count, inside, prefixed, complete, follows⟩ := received.prefixOf
  rcases Nat.lt_or_eq_of_le received.known with earlier | current
  · obtain ⟨same, still⟩ := step.epoch earlier
    refine ⟨Nat.le_of_lt still, count, inside, ?_, ?_, fun equal => by omega⟩
    · rw [same]; exact prefixed
    · rw [same]; exact complete
  · obtain ⟨sameIrs, follows⟩ := follows current.symm
    cases step with
    | idle => exact received
    | @opened packet seg peerMss decoded free mss =>
        have same : (session.openFor k seg peerMss packet.rand).epoch n = session.epoch n :=
          Session.openFor_epoch (Nat.le_of_eq current)
        refine ⟨Nat.le_succ_of_le received.known, count, inside, ?_, ?_, fun equal => ?_⟩
        · rw [same]; exact prefixed
        · rw [same]; exact complete
        · rw [Session.openFor_opens] at equal
          omega
    | @segment packet seg decoded named live =>
        have continues := session.processSegment_continues seg k
        obtain ⟨count', follows'⟩ :=
          follows.processSegment k (sends packet seg rfl decoded current.symm named)
        refine of_follows ?_ (continues.irs.trans sameIrs) follows'
        rw [Session.opens, continues.past]
        exact current.symm
    | freed =>
        exact of_follows current.symm sameIrs
          (follows.congr ⟨rfl, rfl, rfl, rfl, by rintro ⟨⟩, by rintro ⟨⟩⟩ rfl)
    | call _ called =>
        cases called <;> exact of_follows current.symm sameIrs
          (follows.congr ⟨rfl, rfl, rfl, rfl, fun later => later, fun later => later⟩ rfl)
    | stray =>
        exact of_follows current.symm sameIrs
          (follows.congr ⟨rfl, rfl, rfl, rfl, fun later => later, fun later => later⟩ rfl)

end Received

/-- Inbound stream integrity.  A SYN opens a slot; from then on the peer sends
slices of a stream, each within half the sequence space of what has been received,
while anything else happens on the stack.  In every state of the run the payloads
of the connection's `data` events are a prefix of the stream, and all of it once
the peer's FIN has been consumed or reported.  While the connection has its slot,
`rcv_nxt_local` is where the prefix ends. -/
theorem inbound_stream_integrity {k : TcpStack} {before opened state : State}
    {packet : RxPacket} {syn : Segment} {i : Nat} {stream : List Byte}
    (reachable : Reachable k before)
    (opening : Act k before (.task (.packet packet)) opened)
    (decoded : decode k packet.frame packet.contiguous = some (.segment syn))
    (takes : opens i opened.memory.rx.log = opens i before.memory.rx.log + 1)
    (run : Run k (PeerSends k stream i (opens i opened.memory.rx.log)) opened state) :
    let n := opens i opened.memory.rx.log
    let session := state.memory.session i
    ∃ count ≤ stream.length,
      delivered (session.epoch n) = stream.take count ∧
      (told .peerClosed (session.epoch n) = true ∨ finConsumed (session.epoch n) = true →
        count = stream.length) ∧
      (opens i state.memory.rx.log = n →
        (state.memory.rx.slots i).rcvNxtLocal = syn.seq + 1 + BitVec.ofNat 32 count +
          (if finConsumed (session.epoch n) then 1 else 0) ∧
        ((state.memory.rx.slots i).state.afterFin = true → count = stream.length)) := by
  intro n session
  have regular := reachable.regular
  rw [← session_opens, ← session_opens] at takes
  have start : Received stream syn.seq (opened.memory.session i).opens
      (opened.memory.session i) := by
    rcases (opening.session regular i).past with same | ⟨_, seg, peerMss, actions, reads, _, fresh⟩
    · rw [Session.opens, same, Session.opens] at takes
      omega
    · cases actions
      rw [decoded] at reads
      cases reads
      rw [takes, fresh]
      exact .opened k syn peerMss packet.rand
  rw [session_opens] at start
  obtain ⟨_, received⟩ := run.session i (Received stream syn.seq n) (regular.act opening) start
    fun state action session' allowed held step => held.step step allowed
  obtain ⟨count, inside, prefixed, complete, follows⟩ := received.prefixOf
  refine ⟨count, inside, prefixed, complete, ?_⟩
  intro current
  rw [← session_opens] at current
  obtain ⟨sameIrs, follows⟩ := follows current
  have here : session.epoch n = session.history := by
    rw [← current]
    exact session.epoch_opens
  rw [here]
  refine ⟨?_, fun afterFin => (follows.fin (follows.seen (Or.inr afterFin))).1⟩
  rw [← sameIrs]
  exact follows.rcvNxt

/-- A peer's whole stream of two bytes arrives with the end of the handshake. -/
theorem inbound_stream_of_two_bytes :
    let data := peerPacket 8 1 (finFlag ||| ackFlag) 1000 [104, 105]
    let mem := ((process singleSlot data).run singleSlotAfterSyn.memory).2
    delivered ((mem.session 0).epoch 1) = [104, 105] ∧
      ∃ count ≤ 2, delivered ((mem.session 0).epoch 1) = [104, 105].take count ∧
        (finConsumed ((mem.session 0).epoch 1) = true → count = 2) := by
  intro data mem
  refine ⟨by decide, ?_⟩
  have decodedSyn : decode singleSlot (peerPacket 7 0 synFlag 1000 []).frame true =
      some (.segment (peerSegment 7 0 synFlag 1000 [] (by decide))) := by decide
  have decodedData : decode singleSlot data.frame data.contiguous = some (.segment
      (peerSegment 8 1 (finFlag ||| ackFlag) 1000 [104, 105] (by decide))) := by decide
  have allowed : PeerSends singleSlot [104, 105] 0 1 singleSlotAfterSyn
      (.task (.packet data)) := by
    intro packet seg sent reads _ _ _ _ _
    cases sent
    rw [decodedData] at reads
    cases reads
    exact ⟨0, ⟨by decide, by decide, by decide, fun _ => by decide⟩, by decide, by decide⟩
  have run : Run singleSlot (PeerSends singleSlot [104, 105] 0 1) singleSlotAfterSyn
      ⟨.polling 2, mem⟩ := Run.refl.step (.task (.packet data) rfl) allowed
  obtain ⟨count, inside, prefixed, complete, _⟩ :=
    inbound_stream_integrity singleSlotPolling_reachable singleSlotAfterSyn_act decodedSyn
      (by decide) run
  exact ⟨count, inside, prefixed, fun consumed => complete (Or.inr consumed)⟩

end DpdkWrapper.Tcp
