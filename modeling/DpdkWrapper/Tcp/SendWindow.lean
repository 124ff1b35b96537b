import DpdkWrapper.Tcp.SessionRuns

/-!
# Send numbers of a connection

Between calls the published window is the recorded one, and what is in flight,
the distance from `snd_una` to `snd_nxt`, is at most a 16-bit window and our FIN.

`Flow` states this.  It is kept by the three things that change the numbers: a valid ACK, a
`send` that fits the window, and a FIN.  `window_space` computes with 32-bit differences; under
`Flow` they are the differences of the offsets.
-/

namespace DpdkWrapper.Tcp

open Wire

/-- The sequence number of our FIN, once it is published. -/
def finCount (flags : BitVec 8) : Nat :=
  if hasFinSent flags then 1 else 0

theorem finCount_eq_zero {flags : BitVec 8} (unpublished : hasFinSent flags = false) :
    finCount flags = 0 := by
  simp [finCount, unpublished]

theorem finCount_eq_one {flags : BitVec 8} (published : hasFinSent flags = true) :
    finCount flags = 1 := by
  simp [finCount, published]

theorem finCount_le (flags : BitVec 8) : finCount flags ≤ 1 := by
  unfold finCount
  split <;> omega

/-- The send numbers are consistent. -/
structure Flow (numbers : TcpConnection.Numbers) (out : OutboundFields) : Prop where
  window : numbers.sendWindow = packWindow numbers.sndUna numbers.sndWnd
  wnd : numbers.sndWnd.toNat < 65536
  flight : Serial.dist numbers.sndUna out.sndNxt ≤ 65535 + finCount out.outFlags

/-- What is in flight. -/
def Session.flight (session : Session) : Nat :=
  Serial.dist session.conn.sndUna session.out.sndNxt

theorem setWidth_window_lt (window : BitVec 16) : (window.setWidth 32).toNat < 65536 := by
  rw [BitVec.toNat_setWidth]
  have bound := window.isLt
  omega

/-- The room in a published window is what the peer's window has left. -/
theorem windowSpace_eq {window : BitVec 64} {nxt : BitVec 32}
    (small : (windowSize window).toNat < 65536)
    (flight : Serial.dist (windowUna window) nxt ≤ 65536) :
    windowSpace window nxt = (windowSize window).toNat - Serial.dist (windowUna window) nxt := by
  have room : (windowUna window + windowSize window - nxt).toInt =
      ((windowSize window).toNat : Int) - (Serial.dist (windowUna window) nxt : Int) := by
    rw [Serial.dist] at flight ⊢
    rw [BitVec.toInt_eq_toNat_cond]
    simp only [BitVec.toNat_sub, BitVec.toNat_add] at flight ⊢
    split <;> omega
  rw [windowSpace, room]
  split <;> omega

theorem windowSpace_packWindow {una wnd nxt : BitVec 32} (small : wnd.toNat < 65536)
    (flight : Serial.dist una nxt ≤ 65536) :
    windowSpace (packWindow una wnd) nxt = wnd.toNat - Serial.dist una nxt := by
  rw [windowSpace_eq, windowUna_packWindow, windowSize_packWindow]
  · rwa [windowSize_packWindow]
  · rwa [windowUna_packWindow]

/-! ## What changes the send numbers -/

/-- A `send` within the window. -/
theorem Flow.sent {numbers : TcpConnection.Numbers} {out : OutboundFields} {count : Nat}
    (flow : Flow numbers out) (unpublished : hasFinSent out.outFlags = false)
    (window : count ≤ windowSpace numbers.sendWindow out.sndNxt) :
    Flow numbers { out with sndNxt := out.sndNxt + BitVec.ofNat 32 count } ∧
      Serial.dist numbers.sndUna (out.sndNxt + BitVec.ofNat 32 count) =
        Serial.dist numbers.sndUna out.sndNxt + count := by
  have flight := flow.flight
  have small := flow.wnd
  rw [finCount_eq_zero unpublished] at flight
  rw [flow.window, windowSpace_packWindow small (by omega)] at window
  have total : Serial.dist numbers.sndUna (out.sndNxt + BitVec.ofNat 32 count) =
      Serial.dist numbers.sndUna out.sndNxt + count := Serial.dist_advance (by omega)
  refine ⟨⟨flow.window, flow.wnd, ?_⟩, total⟩
  dsimp only
  rw [finCount_eq_zero unpublished, total]
  omega

/-- The FIN takes one more number. -/
theorem Flow.finished {numbers : TcpConnection.Numbers} {out : OutboundFields}
    (flow : Flow numbers out) (unpublished : hasFinSent out.outFlags = false) :
    Flow numbers ⟨out.sndNxt + 1, out.outFlags ||| outFinSent ||| outReleased⟩ ∧
      Serial.dist numbers.sndUna (out.sndNxt + 1) =
        Serial.dist numbers.sndUna out.sndNxt + 1 := by
  have flight := flow.flight
  rw [finCount_eq_zero unpublished] at flight
  have total : Serial.dist numbers.sndUna (out.sndNxt + 1) =
      Serial.dist numbers.sndUna out.sndNxt + 1 :=
    Serial.dist_advance (by omega : Serial.dist numbers.sndUna out.sndNxt + 1 < 2 ^ 32)
  refine ⟨⟨flow.window, flow.wnd, ?_⟩, total⟩
  dsimp only
  rw [finCount_eq_one (by simp), total]
  omega

/-- What recording an ACK does to what is in flight: it shrinks, and is gone exactly
when everything is acknowledged. -/
structure Acknowledged (seg : Segment) (c : TcpConnection) (out : OutboundFields) : Prop where
  le : Serial.dist (recordAck seg c).sndUna out.sndNxt ≤ Serial.dist c.sndUna out.sndNxt
  complete : seg.ack = out.sndNxt → (recordAck seg c).sndUna = out.sndNxt
  partly : seg.ack ≠ out.sndNxt → c.sndUna ≠ out.sndNxt →
    (recordAck seg c).sndUna ≠ out.sndNxt

theorem recordAck_sndUna (seg : Segment) (c : TcpConnection) :
    (recordAck seg c).sndUna = if seqGt seg.ack c.sndUna then seg.ack else c.sndUna := by
  unfold recordAck
  dsimp only
  split <;> split <;> rfl

theorem recordAck_sndWnd (seg : Segment) (c : TcpConnection) :
    (recordAck seg c).sndWnd = seg.window.setWidth 32 ∨ (recordAck seg c).sndWnd = c.sndWnd := by
  unfold recordAck
  dsimp only
  split <;> split <;> simp

/-- An ACK of something in flight takes it out of flight. -/
theorem acknowledged {seg : Segment} {c : TcpConnection} {out : OutboundFields}
    (flight : Serial.dist c.sndUna out.sndNxt ≤ 65536)
    (valid : seqGt seg.ack out.sndNxt = false) : Acknowledged seg c out := by
  rw [seqGt, seqLt, Serial.not_lt_iff] at valid
  by_cases newer : seqGt seg.ack c.sndUna = true
  · have moved : (recordAck seg c).sndUna = seg.ack := by rw [recordAck_sndUna, if_pos newer]
    rw [seqGt, seqLt, Serial.lt_iff] at newer
    have split := Serial.dist_add_dist (a := c.sndUna) (b := seg.ack) (c := out.sndNxt)
      (by omega)
    constructor
    · rw [moved]
      omega
    · exact fun all => moved.trans all
    · intro some _
      rwa [moved]
  · have kept : (recordAck seg c).sndUna = c.sndUna := by rw [recordAck_sndUna, if_neg newer]
    constructor
    · rw [kept]
    · intro all
      rw [kept]
      -- an ACK of everything that is not new finds everything acknowledged
      by_contra unacknowledged
      refine newer ?_
      rw [seqGt, seqLt, Serial.lt_iff, all]
      have positive : Serial.dist c.sndUna out.sndNxt ≠ 0 :=
        fun zero => unacknowledged (Serial.dist_eq_zero_iff.mp zero)
      omega
    · intro _ unacknowledged
      rwa [kept]

theorem Flow.le {numbers : TcpConnection.Numbers} {out : OutboundFields}
    (flow : Flow numbers out) : Serial.dist numbers.sndUna out.sndNxt ≤ 65536 := by
  have flight := flow.flight
  have fin := finCount_le out.outFlags
  omega

/-- A recorded ACK is published if it has changed anything. -/
theorem Session.record_flow {session : Session} {seg : Segment}
    (flow : Flow session.conn.numbers session.out)
    (valid : seqGt seg.ack session.out.sndNxt = false) :
    Flow (session.record seg).conn.numbers session.out ∧
      Acknowledged seg session.conn session.out ∧
      (session.record seg).conn.sndUna = (recordAck seg session.conn).sndUna := by
  have acked := acknowledged flow.le valid
  have small : (recordAck seg session.conn).sndWnd.toNat < 65536 := by
    rcases recordAck_sndWnd seg session.conn with fresh | kept
    · rw [fresh]
      exact setWidth_window_lt seg.window
    · rw [kept]
      exact flow.wnd
  have flight := Nat.le_trans acked.le flow.flight
  rw [Session.record, Session.update]
  cases changed : ackChanges seg session.conn with
  | true =>
      simp only [if_true, TcpConnection.numbers]
      exact ⟨⟨rfl, small, flight⟩, acked, trivial⟩
  | false =>
      simp only [Bool.false_eq_true, if_false, TcpConnection.numbers]
      refine ⟨⟨?_, small, flight⟩, acked, trivial⟩
      simp only [ackChanges, Bool.or_eq_false_iff, bne_eq_false_iff_eq] at changed
      obtain ⟨una, wnd, wl1, wl2, same⟩ := recordAck_eq seg session.conn
      have published : (recordAck seg session.conn).sendWindow = session.conn.sendWindow := by
        rw [same]
      dsimp only
      rw [published, changed.1, changed.2]
      exact flow.window

end DpdkWrapper.Tcp
