import DpdkWrapper.Tcp.AckNumbers
import Mathlib.Data.List.MinMax
import Mathlib.Data.Prod.Lex

/-!
# Window updates

`process_ack` takes the window of a segment if the segment is the newest one by
`(seq, ack)`.  Whatever the order in which segments arrive and however often, the newest
of them decides in the end.  The order is that of `snd_wl1` and `snd_wl2`, which take
part in no sequence check.

The second half is about segments that are outside the receive window, and says exactly when
they leave the connection as it was: `process_ack` has refused the ACK, or the ACK and the
window bring nothing new and no data or FIN is next in order.
-/

namespace DpdkWrapper.Tcp

open Threads Wire

/-- What ACKs have told about the peer. -/
structure SendSide where
  sndUna : BitVec 32
  sndWnd : BitVec 32
  sndWl1 : BitVec 32
  sndWl2 : BitVec 32
  sendWindow : BitVec 64
  deriving DecidableEq

def TcpConnection.sendSide (c : TcpConnection) : SendSide where
  sndUna := c.sndUna
  sndWnd := c.sndWnd
  sndWl1 := c.sndWl1
  sndWl2 := c.sndWl2
  sendWindow := c.sendWindow

/-! ## One ACK -/

section

variable {seg : Segment} {c : TcpConnection}

/-- An ACK that is not behind and whose segment is new to the window. -/
theorem recordAck_fresh (ahead : seqGt seg.ack c.sndUna = true ∨ seg.ack = c.sndUna)
    (newer : seqLt c.sndWl1 seg.seq = true ∨ c.sndWl1 = seg.seq ∧ seqLeq c.sndWl2 seg.ack = true) :
    recordAck seg c =
      { c with
        sndUna := seg.ack
        sndWnd := seg.window.setWidth 32
        sndWl1 := seg.seq
        sndWl2 := seg.ack } := by
  have moved : (if seqGt seg.ack c.sndUna then { c with sndUna := seg.ack } else c) =
      { c with sndUna := seg.ack } := by
    rcases ahead with after | same
    · rw [if_pos after]
    · rw [same]
      exact ite_self c
  have reached : seqGeq seg.ack seg.ack = true := by simp [seqGeq, seqLeq, Serial.le]
  unfold recordAck
  dsimp only
  rw [moved]
  dsimp only
  rw [reached, if_pos]
  rcases newer with after | ⟨same, notBefore⟩
  · rw [after]
    rfl
  · rw [same, notBefore]
    simp

/-- What an ACK tells depends only on what ACKs have told before. -/
theorem recordAck_sendSide (seg : Segment) {c' : TcpConnection} (same : c'.sendSide = c.sendSide) :
    (recordAck seg c').sendSide = (recordAck seg c).sendSide := by
  simp only [TcpConnection.sendSide, SendSide.mk.injEq] at same
  obtain ⟨sndUna, sndWnd, sndWl1, sndWl2, sendWindow⟩ := same
  unfold recordAck
  dsimp only
  rw [sndUna]
  split
  · dsimp only
    rw [sndWl1, sndWl2]
    split
    · simp [TcpConnection.sendSide, sendWindow]
    · simp [TcpConnection.sendSide, sndWnd, sendWindow]
  · rw [sndUna, sndWl1, sndWl2]
    split
    · simp [TcpConnection.sendSide, sendWindow]
    · simp [TcpConnection.sendSide, sndUna, sndWnd, sndWl1, sndWl2, sendWindow]

/-- The segment is new to the window. -/
def updatesWindow (c : TcpConnection) (seg : Segment) : Bool :=
  seqGeq seg.ack c.sndUna &&
    (seqLt c.sndWl1 seg.seq || (c.sndWl1 == seg.seq && seqLeq c.sndWl2 seg.ack))

/-- An ACK that is not new can only tell a window. -/
theorem recordAck_of_behind (behind : seqGt seg.ack c.sndUna = false) :
    recordAck seg c =
      if updatesWindow c seg then
        { c with sndWnd := seg.window.setWidth 32, sndWl1 := seg.seq, sndWl2 := seg.ack }
      else
        c := by
  unfold recordAck
  dsimp only
  rw [behind, if_neg Bool.false_ne_true, ← updatesWindow]

theorem recordAck_stale (behind : seqGt seg.ack c.sndUna = false)
    (old : updatesWindow c seg = false) : recordAck seg c = c := by
  rw [recordAck_of_behind behind, old, if_neg Bool.false_ne_true]

/-- The window update of the segment has been recorded already. -/
def Restates (c : TcpConnection) (seg : Segment) : Prop :=
  c.sndWnd = seg.window.setWidth 32 ∧ c.sndWl1 = seg.seq ∧ c.sndWl2 = seg.ack

/-- The ACKs that tell nothing: the number is not new, and the window is old or the
recorded one. -/
theorem recordAck_eq_self_iff :
    recordAck seg c = c ↔
      seqGt seg.ack c.sndUna = false ∧ (updatesWindow c seg = false ∨ Restates c seg) := by
  constructor
  · intro same
    have behind : seqGt seg.ack c.sndUna = false := by
      by_contra ahead
      rw [Bool.not_eq_false] at ahead
      have moved : (recordAck seg c).sndUna = seg.ack := by
        rw [recordAck_sndUna, if_pos ahead]
      rw [same] at moved
      rw [moved, seqGt_self] at ahead
      cases ahead
    refine ⟨behind, ?_⟩
    cases update : updatesWindow c seg with
    | false => exact Or.inl rfl
    | true =>
        rw [recordAck_of_behind behind, if_pos update] at same
        exact Or.inr ⟨(congrArg TcpConnection.sndWnd same).symm,
          (congrArg TcpConnection.sndWl1 same).symm, (congrArg TcpConnection.sndWl2 same).symm⟩
  · rintro ⟨behind, old | ⟨sndWnd, sndWl1, sndWl2⟩⟩
    · exact recordAck_stale behind old
    · rw [recordAck_of_behind behind, ← sndWnd, ← sndWl1, ← sndWl2]
      exact ite_self c

end

namespace Session

variable (session : Session) (seg : Segment)

theorem processData_sendSide :
    (session.processData seg).conn.sendSide = session.conn.sendSide := by
  refine processData_keeps (·.conn.sendSide = session.conn.sendSide) rfl
    fun same move => ?_
  cases move <;> exact same

theorem finishAck_sendSide :
    (session.finishAck seg).2.conn.sendSide = session.conn.sendSide := by
  unfold finishAck
  split
  · split <;> rfl
  · rfl

/-- A plain segment on a synchronized connection goes through `process_ack`. -/
theorem processSegment_plain (k : TcpStack) (plain : Plain seg)
    (accepted : session.conn.state.accepted = true) (live : session.conn.state ≠ .closed) :
    session.processSegment k seg =
      if (session.syncOutFlags.processAck seg).1 then
        (session.syncOutFlags.processAck seg).2.processData seg
      else
        (session.syncOutFlags.processAck seg).2 := by
  rw [(session.processSegment_synchronized seg k accepted live).1, processSynchronized, plain.rst,
    if_neg Bool.false_ne_true, plain.syn, plain.ack]
  rfl

/-- The connection is synchronized, and the application has not closed it. -/
structure Unclosed : Prop where
  state : session.conn.state = .established ∨ session.conn.state = .closeWait
  unpublished : hasFinSent session.out.outFlags = false

variable {session seg}

theorem Unclosed.accepted (unclosed : Unclosed session) :
    session.conn.state.accepted = true ∧ session.conn.state ≠ .closed := by
  rcases unclosed.state with state | state <;> rw [state] <;> exact ⟨rfl, by rintro ⟨⟩⟩

theorem processData_state (state : session.conn.state = .established ∨
    session.conn.state = .closeWait) :
    (session.processData seg).conn.state = .established ∨
      (session.processData seg).conn.state = .closeWait := by
  refine processData_keeps (fun later => later.conn.state = .established ∨
    later.conn.state = .closeWait) state fun state move => ?_
  cases move with
  | deliver | publish => exact state
  | peerClosed => exact Or.inr rfl
  | closing other | finished other =>
      rw [other] at state
      rcases state with ⟨⟨⟩⟩ | ⟨⟨⟩⟩

/-- On such a connection a valid ACK is recorded, and nothing else touches what ACKs have
told. -/
theorem Unclosed.processSegment (unclosed : Unclosed session) (k : TcpStack) (plain : Plain seg)
    (valid : seqGt seg.ack session.out.sndNxt = false) :
    Unclosed (session.processSegment k seg) ∧
      (session.processSegment k seg).conn.sendSide = (session.record seg).conn.sendSide := by
  obtain ⟨accepted, live⟩ := unclosed.accepted
  have synced : session.syncOutFlags = session := by
    rw [syncOutFlags, unclosed.unpublished, if_neg Bool.false_ne_true]
  have acked : session.processAck seg = (true, session.record seg) := by
    have same : (session.record seg).out = session.out := rfl
    rw [processAck, valid, if_neg Bool.false_ne_true, finishAck, same, unclosed.unpublished,
      Bool.false_and, if_neg Bool.false_ne_true]
  rw [session.processSegment_plain seg k plain accepted live, synced, acked, if_pos rfl]
  refine ⟨⟨processData_state ?_, ?_⟩, processData_sendSide _ seg⟩
  · rw [record_state]
    exact unclosed.state
  · rw [(processData_continues _ seg).out]
    exact unclosed.unpublished

end Session

/-! ## Freshness -/

/-- A segment is newer than a window update at `(wl1, wl2)`. -/
def NewerThan (wl1 wl2 : BitVec 32) (seg : Segment) : Prop :=
  seqLt wl1 seg.seq = true ∨ wl1 = seg.seq ∧ seqLt wl2 seg.ack = true

/-- Segments of the peer that are all news to a connection. -/
structure AllNew (c : TcpConnection) (out : OutboundFields) (segs : List Segment) : Prop where
  plain : ∀ seg ∈ segs, Plain seg
  distinct : ∀ seg ∈ segs, ∀ other ∈ segs, seg.seq = other.seq → seg.ack = other.ack →
    seg.window = other.window
  monotone : ∀ seg ∈ segs, ∀ other ∈ segs, seqLt seg.seq other.seq = true →
    seqLeq seg.ack other.ack = true
  newer : ∀ seg ∈ segs, NewerThan c.sndWl1 c.sndWl2 seg
  acked : ∀ seg ∈ segs, Serial.dist c.sndUna seg.ack ≤ Serial.dist c.sndUna out.sndNxt
  span : ∃ base, Serial.dist base c.sndWl1 < 2 ^ 31 ∧
    ∀ seg ∈ segs, Serial.dist base seg.seq < 2 ^ 31

/-- The place of a segment in the order of window updates, by offsets from two origins. -/
def stamp (base una : BitVec 32) (seg : Segment) : Nat ×ₗ Nat :=
  toLex (Serial.dist base seg.seq, Serial.dist una seg.ack)

/-- The last window update was that of this segment. -/
structure Reflects (seg : Segment) (c : TcpConnection) : Prop where
  sndUna : c.sndUna = seg.ack
  sndWnd : c.sndWnd = seg.window.setWidth 32
  sndWl1 : c.sndWl1 = seg.seq
  sndWl2 : c.sndWl2 = seg.ack

theorem Reflects.congr {seg : Segment} {c c' : TcpConnection} (reflects : Reflects seg c)
    (same : c'.sendSide = c.sendSide) : Reflects seg c' where
  sndUna := (congrArg SendSide.sndUna same).trans reflects.sndUna
  sndWnd := (congrArg SendSide.sndWnd same).trans reflects.sndWnd
  sndWl1 := (congrArg SendSide.sndWl1 same).trans reflects.sndWl1
  sndWl2 := (congrArg SendSide.sndWl2 same).trans reflects.sndWl2

theorem Reflects.record {seg newest : Segment} {session : Session}
    (reflects : Reflects newest (recordAck seg session.conn)) :
    Reflects newest (session.record seg).conn := by
  unfold Session.record Session.update
  dsimp only
  split
  · exact ⟨reflects.sndUna, reflects.sndWnd, reflects.sndWl1, reflects.sndWl2⟩
  · exact reflects

section

variable {c : TcpConnection} {out : OutboundFields} {segs : List Segment} {base : BitVec 32}
  {seg newest : Segment}

/-- The first segment to arrive is an update. -/
theorem AllNew.first (news : AllNew c out segs) (flight : Serial.dist c.sndUna out.sndNxt ≤ 65536)
    (member : seg ∈ segs) {now : TcpConnection} (same : now.sendSide = c.sendSide) :
    Reflects seg (recordAck seg now) := by
  have acked := news.acked seg member
  have sndUna : now.sndUna = c.sndUna := congrArg SendSide.sndUna same
  have sndWl1 : now.sndWl1 = c.sndWl1 := congrArg SendSide.sndWl1 same
  have sndWl2 : now.sndWl2 = c.sndWl2 := congrArg SendSide.sndWl2 same
  rw [recordAck_fresh]
  · exact ⟨rfl, rfl, rfl, rfl⟩
  · rw [sndUna]
    by_cases same : seg.ack = c.sndUna
    · exact Or.inr same
    · left
      have positive : Serial.dist c.sndUna seg.ack ≠ 0 :=
        fun zero => same (Serial.dist_eq_zero_iff.mp zero).symm
      rw [seqGt, seqLt, Serial.lt_iff]
      omega
  · rw [sndWl1, sndWl2]
    rcases news.newer seg member with after | ⟨same, after⟩
    · exact Or.inl after
    · right
      refine ⟨same, ?_⟩
      rw [seqLeq, Serial.le_eq_lt_or_eq]
      exact Or.inl after

/-! The order among the segments is that of their offsets. -/

section Offsets

variable {first second : Segment} (news : AllNew c out segs)
  (flight : Serial.dist c.sndUna out.sndNxt ≤ 65536)
  (span : ∀ seg ∈ segs, Serial.dist base seg.seq < 2 ^ 31)
  (firstMember : first ∈ segs) (secondMember : second ∈ segs)

include span firstMember secondMember in
theorem seq_lt_iff :
    seqLt first.seq second.seq = true ↔
      Serial.dist base first.seq < Serial.dist base second.seq := by
  have firstSpan := span first firstMember
  have secondSpan := span second secondMember
  exact Serial.lt_iff_of_span (by omega) (by omega)

include news flight firstMember secondMember

theorem AllNew.ack_lt_iff :
    seqLt first.ack second.ack = true ↔
      Serial.dist c.sndUna first.ack < Serial.dist c.sndUna second.ack := by
  have firstAcked := news.acked first firstMember
  have secondAcked := news.acked second secondMember
  exact Serial.lt_iff_of_span (by omega) (by omega)

theorem AllNew.ack_le_iff :
    seqLeq first.ack second.ack = true ↔
      Serial.dist c.sndUna first.ack ≤ Serial.dist c.sndUna second.ack := by
  have firstAcked := news.acked first firstMember
  have secondAcked := news.acked second secondMember
  exact Serial.le_iff_of_span (by omega) (by omega)

include span

/-- Later segments acknowledge at least as much. -/
theorem AllNew.ack_le_of_stamp_le
    (notAfter : stamp base c.sndUna first ≤ stamp base c.sndUna second) :
    Serial.dist c.sndUna first.ack ≤ Serial.dist c.sndUna second.ack := by
  rcases Prod.Lex.toLex_le_toLex.mp notAfter with before | ⟨_, notAfter⟩
  · rw [← seq_lt_iff span firstMember secondMember] at before
    rw [← news.ack_le_iff flight firstMember secondMember]
    exact news.monotone first firstMember second secondMember before
  · exact notAfter

end Offsets

section

variable (news : AllNew c out segs) (flight : Serial.dist c.sndUna out.sndNxt ≤ 65536)
  (span : ∀ seg ∈ segs, Serial.dist base seg.seq < 2 ^ 31) {now : TcpConnection}
  (known : newest ∈ segs) (reflects : Reflects newest now) (member : seg ∈ segs)

include news flight span known reflects member

/-- A segment that is not older than the newest one so far is an update. -/
theorem AllNew.update (notAfter : stamp base c.sndUna newest ≤ stamp base c.sndUna seg) :
    Reflects seg (recordAck seg now) := by
  have further := news.ack_le_of_stamp_le flight span known member notAfter
  rw [recordAck_fresh]
  · exact ⟨rfl, rfl, rfl, rfl⟩
  · rw [reflects.sndUna]
    rcases Nat.lt_or_eq_of_le further with strict | same
    · exact Or.inl ((news.ack_lt_iff flight known member).mpr strict)
    · exact Or.inr (Serial.dist_inj same).symm
  · rw [reflects.sndWl1, reflects.sndWl2]
    rcases Prod.Lex.toLex_le_toLex.mp notAfter with before | ⟨same, _⟩
    · exact Or.inl ((seq_lt_iff span known member).mpr before)
    · exact Or.inr ⟨Serial.dist_inj same, (news.ack_le_iff flight known member).mpr further⟩

/-- A segment that is not newer than the newest one so far changes nothing. -/
theorem AllNew.keep (notAfter : stamp base c.sndUna seg ≤ stamp base c.sndUna newest) :
    Reflects newest (recordAck seg now) := by
  rcases lt_or_eq_of_le notAfter with before | same
  · have behind := news.ack_le_of_stamp_le flight span member known notAfter
    rw [recordAck_stale]
    · exact reflects
    · rw [reflects.sndUna, seqGt, ← Bool.not_eq_true, news.ack_lt_iff flight known member]
      omega
    · rw [updatesWindow, reflects.sndWl1, reflects.sndWl2, ← Bool.not_eq_true]
      simp only [Bool.and_eq_true, Bool.or_eq_true, beq_iff_eq]
      rw [seq_lt_iff span known member, news.ack_le_iff flight known member]
      rintro ⟨_, after | ⟨sameSeq, notBefore⟩⟩
      · rcases Prod.Lex.toLex_lt_toLex.mp before with older | ⟨same, _⟩
        · exact Nat.lt_asymm older after
        · exact Nat.ne_of_gt after same
      · rcases Prod.Lex.toLex_lt_toLex.mp before with older | ⟨_, older⟩
        · exact Nat.ne_of_lt older (by rw [sameSeq])
        · exact Nat.not_le.mpr older notBefore
  · -- a duplicate of the newest segment, as far as the window is concerned
    obtain ⟨sameSeq, sameAck⟩ := Prod.mk.inj (toLex_inj.mp same)
    have seqs := Serial.dist_inj sameSeq
    have acks := Serial.dist_inj sameAck
    have windows := news.distinct seg member newest known seqs acks
    obtain ⟨sndUna, sndWnd, sndWl1, sndWl2⟩ :=
      news.update flight span known reflects member (le_of_eq same.symm)
    rw [acks] at sndUna sndWl2
    rw [seqs] at sndWl1
    rw [windows] at sndWnd
    exact ⟨sndUna, sndWnd, sndWl1, sndWl2⟩

end

end

/-! ## Arrivals -/

/-- A run in which the connection in slot `i` receives these segments, newest first, and
is not closed by the application. -/
inductive Arrivals (k : TcpStack) (i : Nat) (start : State) : List Segment → State → Prop
  | nil : Arrivals k i start [] start
  | segment {segs : List Segment} {state state' : State} {packet : RxPacket} {seg : Segment}
      (run : Arrivals k i start segs state)
      (act : Act k state (.task (.packet packet)) state')
      (decoded : decode k packet.frame packet.contiguous = some (.segment seg))
      (named : (state.memory.session i).Matches seg) : Arrivals k i start (seg :: segs) state'
  | other {segs : List Segment} {state state' : State} {action : Action}
      (run : Arrivals k i start segs state) (act : Act k state action state')
      (unnamed : ∀ packet seg, action = .task (.packet packet) →
        decode k packet.frame packet.contiguous = some (.segment seg) →
        ¬(state.memory.session i).Matches seg)
      (unclosed : ∀ env, action ≠ .call (.close (state.memory.session i).connId env)) :
      Arrivals k i start segs state'

theorem Arrivals.reachable {k : TcpStack} {i : Nat} {start state : State} {segs : List Segment}
    (arrivals : Arrivals k i start segs state) (reachable : Reachable k start) :
    Reachable k state := by
  induction arrivals with
  | nil => exact reachable
  | segment _ act _ _ ih => exact ih.step act trivial
  | other _ act _ _ ih => exact ih.step act trivial

/-- How far the connection is in such a run. -/
structure Progress (c : TcpConnection) (out : OutboundFields) (base : BitVec 32)
    (arrived : List Segment) (session : Session) : Prop where
  unclosed : session.Unclosed
  reach : Serial.dist c.sndUna out.sndNxt ≤ Serial.dist c.sndUna session.out.sndNxt
  side : (arrived = [] ∧ session.conn.sendSide = c.sendSide) ∨
    ∃ newest ∈ arrived, Reflects newest session.conn ∧
      ∀ seg ∈ arrived, stamp base c.sndUna seg ≤ stamp base c.sndUna newest

namespace Progress

variable {k : TcpStack} {c : TcpConnection} {out : OutboundFields} {base : BitVec 32}
  {segs arrived : List Segment} {seg : Segment} {session session' : Session} {action : Action}

/-- `snd_una` has not left the range of the expected ACKs. -/
theorem una_le (progress : Progress c out base arrived session) (news : AllNew c out segs)
    (known : ∀ seg ∈ arrived, seg ∈ segs) :
    Serial.dist c.sndUna session.conn.sndUna ≤ Serial.dist c.sndUna out.sndNxt := by
  rcases progress.side with ⟨_, same⟩ | ⟨newest, member, reflects, _⟩
  · have sndUna : session.conn.sndUna = c.sndUna := congrArg SendSide.sndUna same
    rw [sndUna, Serial.dist_self]
    exact Nat.zero_le _
  · rw [reflects.sndUna]
    exact news.acked newest (known newest member)

section

variable (progress : Progress c out base arrived session) (news : AllNew c out segs)
  (known : ∀ seg ∈ arrived, seg ∈ segs) (flight : Serial.dist c.sndUna out.sndNxt ≤ 65536)

include progress news known flight

theorem sndNxt_eq {sndNxt : BitVec 32} (few : Serial.dist session.conn.sndUna sndNxt ≤ 65536) :
    Serial.dist c.sndUna sndNxt =
      Serial.dist c.sndUna session.conn.sndUna + Serial.dist session.conn.sndUna sndNxt := by
  have una := progress.una_le news known
  exact Serial.dist_add_dist (by omega)

/-- None of the ACKs is beyond `snd_nxt`. -/
theorem valid (steady : SessionInvariant session) (member : seg ∈ segs) :
    seqGt seg.ack session.out.sndNxt = false := by
  obtain ⟨accepted, _⟩ := progress.unclosed.accepted
  have few := (steady.standing.flow (TcpState.accepted_iff.mp accepted).1).le
  have sndNxt := progress.sndNxt_eq news known flight few
  have una := progress.una_le news known
  have reach := progress.reach
  have acked := news.acked seg member
  have bound : Serial.dist session.conn.sndUna session.out.sndNxt ≤ 65536 := few
  have order : seqLt session.out.sndNxt seg.ack = true ↔
      Serial.dist c.sndUna session.out.sndNxt < Serial.dist c.sndUna seg.ack :=
    Serial.lt_iff_of_span (by omega) (by omega)
  rw [seqGt, ← Bool.not_eq_true, order]
  omega

theorem segment (steady : SessionInvariant session)
    (span : ∀ seg ∈ segs, Serial.dist base seg.seq < 2 ^ 31) (member : seg ∈ segs) :
    Progress c out base (seg :: arrived) (session.processSegment k seg) := by
  obtain ⟨unclosed, side⟩ := progress.unclosed.processSegment k (news.plain seg member)
    (progress.valid news known flight steady member)
  have transfer : ∀ newest, Reflects newest (recordAck seg session.conn) →
      Reflects newest (session.processSegment k seg).conn :=
    fun newest reflects => reflects.record.congr side
  refine ⟨unclosed, ?_, Or.inr ?_⟩
  · rw [(session.processSegment_continues seg k).out]
    exact progress.reach
  · rcases progress.side with ⟨none, same⟩ | ⟨newest, isArrived, reflects, greatest⟩
    · refine ⟨seg, List.mem_cons_self, transfer seg (news.first flight member same), ?_⟩
      rw [none]
      intro other single
      rw [List.mem_singleton.mp single]
    · have newestKnown := known newest isArrived
      rcases le_total (stamp base c.sndUna newest) (stamp base c.sndUna seg) with up | down
      · refine ⟨seg, List.mem_cons_self,
          transfer seg (news.update flight span newestKnown reflects member up), ?_⟩
        intro other isOther
        rcases List.mem_cons.mp isOther with rfl | earlier
        · exact le_refl _
        · exact le_trans (greatest other earlier) up
      · refine ⟨newest, List.mem_cons_of_mem _ isArrived,
          transfer newest (news.keep flight span newestKnown reflects member down), ?_⟩
        intro other isOther
        rcases List.mem_cons.mp isOther with rfl | earlier
        · exact down
        · exact greatest other earlier

theorem call {call : Call} (steady : SessionInvariant session)
    (step : CallStep session call session')
    (unclosed : ∀ env, call ≠ .close session.connId env) :
    Progress c out base arrived session' := by
  have side := progress.side
  cases step with
  | same => exact progress
  | refused => exact ⟨⟨progress.unclosed.state, progress.unclosed.unpublished⟩,
    progress.reach, side⟩
  | @sent conn bytes count segments env named sendable _ window =>
      refine ⟨⟨progress.unclosed.state, progress.unclosed.unpublished⟩, ?_, side⟩
      obtain ⟨accepted, _⟩ := progress.unclosed.accepted
      have flow := steady.standing.flow (TcpState.accepted_iff.mp accepted).1
      obtain ⟨flow', total⟩ := flow.sent sendable.finSent window
      have few : Serial.dist session.conn.sndUna
          (session.out.sndNxt + BitVec.ofNat 32 count) ≤ 65536 := flow'.le
      have before := progress.sndNxt_eq news known flight flow.le
      have after := progress.sndNxt_eq news known flight few
      have reach := progress.reach
      have grown : Serial.dist session.conn.sndUna (session.out.sndNxt + BitVec.ofNat 32 count) =
          Serial.dist session.conn.sndUna session.out.sndNxt + count := total
      have sameFlight : Serial.dist session.conn.sndUna session.out.sndNxt =
        Serial.dist session.conn.numbers.sndUna session.out.sndNxt := rfl
      change _ ≤ Serial.dist c.sndUna (session.out.sndNxt + BitVec.ofNat 32 count)
      omega
  | finished env named => exact absurd (by rw [named]) (unclosed env)
  | released env named => exact absurd (by rw [named]) (unclosed env)

/-- What else happens does not matter. -/
theorem other (steady : SessionInvariant session) (step : SessionStep k session action session')
    (unnamed : ∀ packet seg, action = .task (.packet packet) →
      decode k packet.frame packet.contiguous = some (.segment seg) → ¬session.Matches seg)
    (unclosed : ∀ env, action ≠ .call (.close session.connId env)) :
    Progress c out base arrived session' := by
  obtain ⟨accepted, live⟩ := progress.unclosed.accepted
  have unfree := (TcpState.accepted_iff.mp accepted).1
  cases step with
  | idle => exact progress
  | opened _ free => exact absurd free unfree
  | segment decoded named => exact absurd named (unnamed _ _ rfl decoded)
  | freed _ closed => exact absurd closed live
  | call _ step =>
      exact progress.call news known flight steady step fun env same => unclosed env (by rw [same])
  | stray out sends never => exact absurd (steady.unopened never) unfree

end

end Progress

theorem Arrivals.progress {k : TcpStack} {i : Nat} {start state : State}
    {segs arrived : List Segment} {c : TcpConnection} {out : OutboundFields} {base : BitVec 32}
    (arrivals : Arrivals k i start arrived state) (reachable : Reachable k start)
    (inside : i < k.maxConnections) (news : AllNew c out segs)
    (flight : Serial.dist c.sndUna out.sndNxt ≤ 65536)
    (span : ∀ seg ∈ segs, Serial.dist base seg.seq < 2 ^ 31)
    (begins : Progress c out base [] (start.memory.session i))
    (known : ∀ seg ∈ arrived, seg ∈ segs) :
    Progress c out base arrived (state.memory.session i) := by
  induction arrivals with
  | nil => exact begins
  | @segment arrived state state' packet seg arrivals act decoded named ih =>
      have earlier : ∀ seg ∈ arrived, seg ∈ segs :=
        fun seg member => known seg (List.mem_cons_of_mem _ member)
      have progress := ih earlier
      have reached := arrivals.reachable reachable
      obtain ⟨accepted, live⟩ := progress.unclosed.accepted
      cases act with
      | task task enabled =>
          change Progress c out base (seg :: arrived)
            (((process k packet).run _).2.session i)
          rw [process_here reached.inOrder.accounts inside (TcpState.accepted_iff.mp accepted).1
            live decoded named]
          exact progress.segment news earlier flight (SessionInvariant.reachable reached i) span
            (known seg List.mem_cons_self)
  | other arrivals act unnamed unclosed ih =>
      have reached := arrivals.reachable reachable
      exact (ih known).other news known flight (SessionInvariant.reachable reached i)
        (act.session reached.regular i) unnamed unclosed

/-- Window updates converge whatever the reordering.  Let a connection be established and
not closed by the application, and let some of its peer's segments be news to it: with
ACK, without SYN or RST, told apart by `(seq, ack)`, monotone, newer than the last window
update, with ACKs from `snd_una` to `snd_nxt` and sequence numbers within half the
sequence space.  Then one of them is the newest.  Whenever all of them have arrived, in
any order and as often as they like, and whatever else has happened meanwhile, its ACK is
`snd_una` and its window is the recorded and the published one. -/
theorem window_updates_converge {k : TcpStack} {state : State} {i : Nat} {segs : List Segment}
    (reachable : Reachable k state) (inside : i < k.maxConnections)
    (established : (state.memory.rx.slots i).state = .established)
    (unclosed : hasFinSent (state.memory.tx.slots i).outFlags = false)
    (news : AllNew (state.memory.rx.slots i) (state.memory.tx.slots i) segs)
    (nonempty : segs ≠ []) :
    ∃ newest ∈ segs,
      (∀ seg ∈ segs, seqLeq seg.ack newest.ack = true ∧
        (seg.seq = newest.seq ∧ seg.ack = newest.ack ∨ NewerThan seg.seq seg.ack newest)) ∧
      ∀ arrived state', Arrivals k i state arrived state' →
        (∀ seg, seg ∈ arrived ↔ seg ∈ segs) →
        (state'.memory.rx.slots i).sndUna = newest.ack ∧
          (state'.memory.rx.slots i).sndWnd = newest.window.setWidth 32 ∧
          (state'.memory.rx.slots i).sendWindow =
            packWindow newest.ack (newest.window.setWidth 32) := by
  set c := state.memory.rx.slots i
  set out := state.memory.tx.slots i
  obtain ⟨base, _, span⟩ := news.span
  have steady := SessionInvariant.reachable reachable i
  have unfree : (state.memory.session i).conn.state ≠ .free := by
    rw [session_state, established]
    rintro ⟨⟩
  have flight : Serial.dist c.sndUna out.sndNxt ≤ 65536 := (steady.standing.flow unfree).le
  have begins : Progress c out base [] (state.memory.session i) :=
    ⟨⟨Or.inl established, unclosed⟩, Nat.le_refl _, Or.inl ⟨rfl, rfl⟩⟩
  obtain ⟨newest, isGreatest⟩ := Option.ne_none_iff_exists'.mp
    (mt List.argmax_eq_none.mp nonempty : List.argmax (stamp base c.sndUna) segs ≠ none)
  have member := List.argmax_mem isGreatest
  have greatest : ∀ seg ∈ segs, stamp base c.sndUna seg ≤ stamp base c.sndUna newest :=
    fun seg isSeg => List.le_of_mem_argmax isSeg isGreatest
  refine ⟨newest, member, ?_, ?_⟩
  · intro seg isSeg
    have notAfter := news.ack_le_of_stamp_le flight span isSeg member (greatest seg isSeg)
    refine ⟨(news.ack_le_iff flight isSeg member).mpr notAfter, ?_⟩
    rcases Prod.Lex.toLex_le_toLex.mp (greatest seg isSeg) with before | ⟨sameSeq, _⟩
    · exact Or.inr (Or.inl ((seq_lt_iff span isSeg member).mpr before))
    · rcases Nat.lt_or_eq_of_le notAfter with before | sameAck
      · exact Or.inr (Or.inr ⟨Serial.dist_inj sameSeq,
          (news.ack_lt_iff flight isSeg member).mpr before⟩)
      · exact Or.inl ⟨Serial.dist_inj sameSeq, Serial.dist_inj sameAck⟩
  · intro arrived state' arrivals same
    have progress := arrivals.progress reachable inside news flight span begins
      fun seg isArrived => (same seg).mp isArrived
    rcases progress.side with ⟨none, _⟩ | ⟨last, isArrived, reflects, lastGreatest⟩
    · rw [none] at same
      exact absurd ((same newest).mpr member) List.not_mem_nil
    · have sameStamp := le_antisymm (greatest last ((same last).mp isArrived))
        (lastGreatest newest ((same newest).mpr member))
      obtain ⟨sameSeq, sameAck⟩ := Prod.mk.inj (toLex_inj.mp sameStamp)
      have acks := Serial.dist_inj sameAck
      have windows := news.distinct last ((same last).mp isArrived) newest member
        (Serial.dist_inj sameSeq) acks
      have sndUna : (state'.memory.rx.slots i).sndUna = newest.ack := by
        rw [← acks]
        exact reflects.sndUna
      have sndWnd : (state'.memory.rx.slots i).sndWnd = newest.window.setWidth 32 := by
        rw [← windows]
        exact reflects.sndWnd
      refine ⟨sndUna, sndWnd, ?_⟩
      obtain ⟨accepted, _⟩ := progress.unclosed.accepted
      have flow := (SessionInvariant.reachable (arrivals.reachable reachable) i).standing.flow
        (TcpState.accepted_iff.mp accepted).1
      rw [← sndUna, ← sndWnd]
      exact flow.window

/-- Two updates that arrive in the wrong order. -/
theorem window_updates_converge_of_two :
    let early := peerSegment 9 1 ackFlag 500 [] (by decide)
    let late := peerSegment 10 1 ackFlag 700 [] (by decide)
    let middle := ((process singleSlot (peerPacket 10 1 ackFlag 700 [])).run
      singleSlotAccepted.memory).2
    let final := ((process singleSlot (peerPacket 9 1 ackFlag 500 [])).run middle).2
    Arrivals singleSlot 0 singleSlotAccepted [early, late] ⟨.polling 4, final⟩ ∧
      (final.rx.slots 0).sndWnd = 700 := by
  intro early late middle final
  have first : Arrivals singleSlot 0 singleSlotAccepted [late] ⟨.polling 3, middle⟩ :=
    Arrivals.nil.segment (.task (.packet (peerPacket 10 1 ackFlag 700 [])) rfl) rfl
      ⟨rfl, rfl, rfl⟩
  have arrivals : Arrivals singleSlot 0 singleSlotAccepted [early, late] ⟨.polling 4, final⟩ :=
    first.segment (.task (.packet (peerPacket 9 1 ackFlag 500 [])) rfl) rfl ⟨rfl, rfl, rfl⟩
  have either : ∀ seg ∈ [early, late], seg = early ∨ seg = late := by simp
  have news : AllNew (singleSlotAccepted.memory.rx.slots 0) (singleSlotAccepted.memory.tx.slots 0)
      [early, late] := by
    constructor
    case plain =>
      intro seg member
      rcases either seg member with rfl | rfl <;> exact ⟨by decide, by decide, by decide⟩
    case newer =>
      intro seg member
      rcases either seg member with rfl | rfl <;> exact Or.inl (by decide)
    case span => exact ⟨8, by decide, by decide⟩
    all_goals decide
  obtain ⟨newest, member, isNewest, converge⟩ := window_updates_converge
    singleSlotAccepted_reachable (by decide) (by decide) (by decide) news (by rintro ⟨⟩)
  have late_is_newest : newest = late := by
    rcases either newest member with rfl | rfl
    · rcases (isNewest late (by simp)).2 with ⟨same, _⟩ | after | ⟨same, _⟩
      · exact absurd same (by decide)
      · exact absurd after (by decide)
      · exact absurd same (by decide)
    · rfl
  obtain ⟨_, window, _⟩ := converge _ _ arrivals fun _ => Iff.rfl
  refine ⟨arrivals, ?_⟩
  rw [window, late_is_newest]
  rfl

/-! ## Out of the window -/

/-- The sequence number is at or beyond the end of the receive window. -/
def OutOfWindow (k : TcpStack) (c : TcpConnection) (seg : Segment) : Prop :=
  seqGeq seg.seq (c.rcvNxtLocal + k.receiveWindow.setWidth 32) = true

/-- The segment brings data or a FIN exactly at the receive number, to a state that can
receive. -/
def NextData (c : TcpConnection) (out : OutboundFields) (seg : Segment) : Prop :=
  (c.state.synced (hasFinSent out.outFlags)).canReceive = true ∧ occupies seg = true ∧
    seg.seq = c.rcvNxtLocal

/-- `process_ack` refuses the ACK; or neither the ACK nor the window tells anything, and
the segment brings nothing. -/
def NoEffect (c : TcpConnection) (out : OutboundFields) (seg : Segment) : Prop :=
  seqGt seg.ack out.sndNxt = true ∨
    (seqGt seg.ack c.sndUna = false ∧ (updatesWindow c seg = false ∨ Restates c seg)) ∧
      ¬NextData c out seg

/-- What the segment must leave alone: what ACKs have told, the receive number, and the
state up to `sync_out_flags`. -/
structure Untouched (session session' : Session) : Prop where
  sendSide : session'.conn.sendSide = session.conn.sendSide
  rcvNxtLocal : session'.conn.rcvNxtLocal = session.conn.rcvNxtLocal
  rcvNxt : session'.conn.rcvNxt = session.conn.rcvNxt
  state : session'.conn.state.synced (hasFinSent session'.out.outFlags) =
    session.conn.state.synced (hasFinSent session.out.outFlags)

/-- Such a segment does not look old unless it is far ahead, and then it reaches nothing. -/
theorem OutOfWindow.reaches_nothing {k : TcpStack} {c : TcpConnection} {seg : Segment}
    (outside : OutOfWindow k c seg) (ahead : seg.seq ≠ c.rcvNxtLocal) :
    seqGt seg.seq c.rcvNxtLocal = true ∨
      seqGt (seg.seq + seg.len) c.rcvNxtLocal = false ∧ seg.seq + seg.len ≠ c.rcvNxtLocal := by
  rw [OutOfWindow, seqGeq, seqLeq, Serial.le_iff] at outside
  set rcvNxt := c.rcvNxtLocal
  have small := seg.payload_lt
  have windowSmall := k.receiveWindow.isLt
  have window : Serial.dist rcvNxt (rcvNxt + k.receiveWindow.setWidth 32) =
      k.receiveWindow.toNat := by
    have width : k.receiveWindow.setWidth 32 = BitVec.ofNat 32 k.receiveWindow.toNat := by
      rw [← BitVec.setWidth_eq (BitVec.ofNat 32 _)]
      exact BitVec.eq_of_toNat_eq (by simp)
    rw [width]
    exact Serial.dist_add_ofNat rcvNxt (by omega)
  have whole : Serial.dist rcvNxt seg.seq = k.receiveWindow.toNat +
      Serial.dist (rcvNxt + k.receiveWindow.setWidth 32) seg.seq := by
    rw [← window]
    exact Serial.dist_add_dist (by omega)
  have nonzero : Serial.dist rcvNxt seg.seq ≠ 0 :=
    fun zero => ahead (Serial.dist_eq_zero_iff.mp zero).symm
  by_cases near : 2 * Serial.dist rcvNxt seg.seq ≤ 2 ^ 32
  · left
    rw [seqGt, seqLt, Serial.lt_iff]
    omega
  · right
    have length : Serial.dist seg.seq (seg.seq + seg.len) = seg.payload.length :=
      Serial.dist_add_ofNat seg.seq (by omega)
    have reach : Serial.dist rcvNxt (seg.seq + seg.len) =
        Serial.dist rcvNxt seg.seq + seg.payload.length := by
      rw [← length]
      exact Serial.dist_add_dist (by omega)
    constructor
    · rw [seqGt, seqLt, ← Bool.not_eq_true, Serial.lt_iff]
      omega
    · intro same
      rw [same, Serial.dist_self] at reach
      omega

namespace Session

variable {session : Session} {seg : Segment} {k : TcpStack}

theorem publishRcvNxt_of_published (published : session.conn.rcvNxt = session.conn.rcvNxtLocal) :
    session.publishRcvNxt = session := by
  obtain ⟨slot, past, conn, out, history, sends⟩ := session
  cases conn
  cases published
  rfl

theorem processData_outside (outside : OutOfWindow k session.conn seg)
    (nothing : ¬(session.conn.state.canReceive = true ∧ occupies seg = true ∧
      seg.seq = session.conn.rcvNxtLocal))
    (published : session.conn.rcvNxt = session.conn.rcvNxtLocal) :
    session.processData seg = session := by
  unfold processData
  split
  · rfl
  · rename_i receives
    rw [Bool.not_eq_true, Bool.not_eq_false'] at receives
    split
    · rfl
    · rename_i busy
      have occupied : occupies seg = true := by
        rw [occupies_eq, Bool.eq_false_iff.mpr busy, Bool.not_false]
      have beyond : seg.seq ≠ session.conn.rcvNxtLocal :=
        fun same => nothing ⟨receives, occupied, same⟩
      split
      · rfl
      · rename_i inOrder
        rcases outside.reaches_nothing beyond with after | ⟨nothing, noFin⟩
        · exact absurd after inOrder
        · have undelivered : session.deliver seg = session := by
            rw [deliver, nothing, if_neg Bool.false_ne_true]
          unfold accept
          rw [undelivered]
          dsimp only
          rw [beq_false_of_ne noFin, Bool.and_false, if_neg Bool.false_ne_true,
            publishRcvNxt_of_published published]

/-- Delivery at the receive number moves it to the end of the payload. -/
theorem deliver_rcvNxtLocal_of_next (next : seg.seq = session.conn.rcvNxtLocal) :
    (session.deliver seg).conn.rcvNxtLocal = seg.seq + seg.len := by
  have small := seg.payload_lt
  have length : Serial.dist seg.seq (seg.seq + seg.len) = seg.payload.length :=
    Serial.dist_add_ofNat seg.seq (by omega)
  unfold deliver
  split
  · rfl
  · rename_i nothing
    rw [← next, seqGt, seqLt, Serial.lt_iff, length] at nothing
    have same : Serial.dist seg.seq (seg.seq + seg.len) = 0 := by omega
    rw [← next]
    exact Serial.dist_eq_zero_iff.mp same

theorem consumeFin_rcvNxtLocal :
    session.consumeFin.conn.rcvNxtLocal = session.conn.rcvNxtLocal + 1 := by
  unfold consumeFin
  split <;> rfl

theorem accept_rcvNxtLocal_of_next (next : seg.seq = session.conn.rcvNxtLocal) :
    (session.accept seg).conn.rcvNxtLocal =
      seg.seq + seg.len + if seg.has finFlag then 1 else 0 := by
  have delivered := session.deliver_rcvNxtLocal_of_next next
  unfold accept
  dsimp only
  rw [delivered, beq_self_eq_true, Bool.and_true]
  split
  · change (session.deliver seg).consumeFin.conn.rcvNxtLocal = _
    rw [consumeFin_rcvNxtLocal, delivered]
  · change (session.deliver seg).conn.rcvNxtLocal = _
    rw [delivered]
    exact (BitVec.add_zero _).symm

/-- What a segment brings moves the receive number. -/
theorem processData_advances (receives : session.conn.state.canReceive = true)
    (occupied : occupies seg = true) (next : seg.seq = session.conn.rcvNxtLocal) :
    (session.processData seg).conn.rcvNxtLocal ≠ session.conn.rcvNxtLocal := by
  have small := seg.payload_lt
  have busy : (seg.len == 0 && !seg.has finFlag) = false := by
    rw [← Bool.not_eq_true', ← occupies_eq, occupied]
  have inOrder : seqGt seg.seq session.conn.rcvNxtLocal = false := by rw [← next, seqGt_self]
  rw [processData, receives, Bool.not_true, if_neg Bool.false_ne_true, busy,
    if_neg Bool.false_ne_true, inOrder, if_neg Bool.false_ne_true,
    accept_rcvNxtLocal_of_next next, ← next]
  intro same
  cases fin : seg.has finFlag with
  | true =>
      have ahead : Serial.dist seg.seq (seg.seq + BitVec.ofNat 32 (seg.payload.length + 1)) =
        seg.payload.length + 1 := Serial.dist_add_ofNat seg.seq (by omega)
      rw [fin, if_pos rfl, BitVec.add_assoc] at same
      rw [BitVec.ofNat_add] at ahead
      change Serial.dist seg.seq (seg.seq + (seg.len + 1)) = _ at ahead
      rw [same, Serial.dist_self] at ahead
      omega
  | false =>
      rw [fin, if_neg Bool.false_ne_true] at same
      have empty : seg.len = 0 := BitVec.add_right_eq_self.mp ((BitVec.add_zero _).symm.trans same)
      rw [fin, empty] at busy
      cases busy

/-- An ACK that tells nothing leaves the connection alone, and finds no FIN to
acknowledge. -/
theorem processAck_of_recorded (standing : StateConsistent session)
    (unfree : session.conn.state ≠ .free) (valid : seqGt seg.ack session.out.sndNxt = false)
    (recorded : recordAck seg session.conn = session.conn) :
    session.processAck seg = (true, session) := by
  have same : session.record seg = session := by
    have unchanged : ackChanges seg session.conn = false := by simp [ackChanges, recorded]
    rw [record, update, unchanged, if_neg Bool.false_ne_true, recorded]
  rw [processAck, valid, if_neg Bool.false_ne_true, same]
  unfold finishAck
  split
  · rename_i acksFin
    simp only [Bool.and_eq_true, beq_iff_eq] at acksFin
    obtain ⟨sent, all⟩ := acksFin
    -- nothing is in flight, so the FIN was acknowledged before
    have bound : session.flight ≤ 65536 := (standing.flow unfree).le
    have behind := (recordAck_eq_self_iff.mp recorded).1
    have none : session.flight = 0 := by
      rw [all, seqGt, seqLt, ← Bool.not_eq_true, Serial.lt_iff] at behind
      rw [flight] at bound ⊢
      omega
    have stands := standing.stands
    rw [none] at stands
    split
    · rename_i state
      rw [state] at stands
      exact absurd rfl stands.2.1
    · rename_i state
      rw [state] at stands
      exact absurd rfl stands.2.1
    · rename_i state
      rw [state] at stands
      exact absurd rfl stands.2.1
    · rfl
  · rfl

/-- Any other valid ACK leaves a trace on the send side. -/
theorem recordAck_of_processAck (valid : seqGt seg.ack session.out.sndNxt = false)
    (same : (session.processAck seg).2.conn.sendSide = session.conn.sendSide) :
    recordAck seg session.conn = session.conn := by
  have side : (session.record seg).conn.sendSide = session.conn.sendSide := by
    rw [← finishAck_sendSide _ seg, ← same, processAck, valid, if_neg Bool.false_ne_true]
  obtain ⟨una, wnd, wl1, wl2, eq⟩ := recordAck_eq seg session.conn
  have fields : una = session.conn.sndUna ∧ wnd = session.conn.sndWnd ∧
      wl1 = session.conn.sndWl1 ∧ wl2 = session.conn.sndWl2 := by
    unfold record update at side
    dsimp only at side
    rw [eq] at side
    simp only [TcpConnection.sendSide, SendSide.mk.injEq] at side
    split at side <;> exact ⟨side.1, side.2.1, side.2.2.1, side.2.2.2.1⟩
  obtain ⟨rfl, rfl, rfl, rfl⟩ := fields
  exact eq

end Session

theorem TcpState.synced_synced (finSent : Bool) (state : TcpState) :
    (state.synced finSent).synced finSent = state.synced finSent := by
  cases finSent <;> cases state <;> rfl

/-- The session after `sync_out_flags` is as good as the session itself. -/
theorem Untouched.syncOutFlags_iff {session session' : Session} :
    Untouched session.syncOutFlags session' ↔ Untouched session session' := by
  rw [session.syncOutFlags_eq]
  constructor
  · rintro ⟨sendSide, rcvNxtLocal, rcvNxt, state⟩
    exact ⟨sendSide, rcvNxtLocal, rcvNxt, state.trans (TcpState.synced_synced _ _)⟩
  · rintro ⟨sendSide, rcvNxtLocal, rcvNxt, state⟩
    exact ⟨sendSide, rcvNxtLocal, rcvNxt, state.trans (TcpState.synced_synced _ _).symm⟩

theorem Untouched.refl (session : Session) : Untouched session session := ⟨rfl, rfl, rfl, rfl⟩

/-- What a segment at or beyond the end of the window leaves alone, on a connection whose
`out_flags` have been looked at. -/
theorem Session.untouched_iff {folded : Session} {seg : Segment} {k : TcpStack}
    (standing : StateConsistent folded) (unfree : folded.conn.state ≠ .free)
    (published : folded.conn.rcvNxt = folded.conn.rcvNxtLocal)
    (outside : OutOfWindow k folded.conn seg) :
    Untouched folded
        (if (folded.processAck seg).1 then (folded.processAck seg).2.processData seg
          else (folded.processAck seg).2) ↔
      seqGt seg.ack folded.out.sndNxt = true ∨
        (seqGt seg.ack folded.conn.sndUna = false ∧
            (updatesWindow folded.conn seg = false ∨ Restates folded.conn seg)) ∧
          ¬(folded.conn.state.canReceive = true ∧ occupies seg = true ∧
            seg.seq = folded.conn.rcvNxtLocal) := by
  rw [← recordAck_eq_self_iff]
  cases refused : seqGt seg.ack folded.out.sndNxt with
  | true =>
      have acked : folded.processAck seg =
          (false, folded.note (.ackRefused folded.slot seg.ack folded.out.sndNxt)) := by
        rw [Session.processAck, if_pos refused]
      rw [acked]
      exact ⟨fun _ => Or.inl rfl, fun _ => ⟨rfl, rfl, rfl, rfl⟩⟩
  | false =>
      constructor
      · intro untouched
        have side : (folded.processAck seg).2.conn.sendSide = folded.conn.sendSide := by
          have whole := untouched.sendSide
          split at whole
          · rw [← whole, Session.processData_sendSide]
          · exact whole
        have recorded := Session.recordAck_of_processAck refused side
        refine Or.inr ⟨recorded, ?_⟩
        rintro ⟨receives, occupied, next⟩
        have moved := untouched.rcvNxtLocal
        rw [Session.processAck_of_recorded standing unfree refused recorded, if_pos rfl] at moved
        exact Session.processData_advances receives occupied next moved
      · rintro (beyond | ⟨recorded, nothing⟩)
        · cases beyond
        · rw [Session.processAck_of_recorded standing unfree refused recorded, if_pos rfl,
            Session.processData_outside outside nothing published]
          exact Untouched.refl folded

theorem SessionInvariant.untouched_iff {session : Session} {seg : Segment} {k : TcpStack}
    (steady : SessionInvariant session) (published : session.conn.rcvNxt = session.conn.rcvNxtLocal)
    (accepted : session.conn.state.accepted = true) (live : session.conn.state ≠ .closed)
    (plain : Plain seg) (outside : OutOfWindow k session.conn seg) :
    Untouched session (session.processSegment k seg) ↔
      NoEffect session.conn session.out seg := by
  have standing := steady.standing.synced
  have unfree := (TcpState.accepted_iff.mp (session.syncOutFlags_proceeds.accepted accepted)).1
  rw [session.processSegment_plain seg k plain accepted live, ← Untouched.syncOutFlags_iff]
  have synced := session.syncOutFlags_eq
  generalize session.syncOutFlags = folded at synced unfree ⊢
  subst synced
  exact Session.untouched_iff standing unfree published outside

/-- Out-of-window segments.  In every reachable state, take a segment with ACK and without
SYN or RST for a connection that is established or later and not terminal, at or beyond
the end of the receive window.  It leaves the send side, both receive numbers and the
folded state alone exactly if `process_ack` refuses its ACK as beyond `snd_nxt`, or its ACK
is not new, its window is old or the recorded one, and it brings nothing at `rcv_nxt` that
the state could receive.  Then every later ACK has the effect that it would have had
before. -/
theorem out_of_window_untouched {k : TcpStack} {state state' : State} {i : Nat}
    {packet : RxPacket} {seg : Segment} (reachable : Reachable k state)
    (inside : i < k.maxConnections) (accepted : (state.memory.rx.slots i).state.accepted = true)
    (live : (state.memory.rx.slots i).state ≠ .closed)
    (act : Act k state (.task (.packet packet)) state')
    (decoded : decode k packet.frame packet.contiguous = some (.segment seg))
    (named : (state.memory.session i).Matches seg) (plain : Plain seg)
    (outside : OutOfWindow k (state.memory.rx.slots i) seg) :
    (Untouched (state.memory.session i) (state'.memory.session i) ↔
        NoEffect (state.memory.rx.slots i) (state.memory.tx.slots i) seg) ∧
      (NoEffect (state.memory.rx.slots i) (state.memory.tx.slots i) seg →
        ∀ later, (recordAck later (state'.memory.rx.slots i)).sendSide =
          (recordAck later (state.memory.rx.slots i)).sendSide) := by
  have steady := SessionInvariant.reachable reachable i
  have published := (Numbered.reachable reachable i).published
  have untouched : Untouched (state.memory.session i) (state'.memory.session i) ↔
      NoEffect (state.memory.rx.slots i) (state.memory.tx.slots i) seg := by
    cases act with
    | task task enabled =>
        change Untouched _ (((process k packet).run _).2.session i) ↔ _
        rw [process_here reachable.inOrder.accounts inside (TcpState.accepted_iff.mp accepted).1
          live decoded named]
        exact steady.untouched_iff published accepted live plain outside
  exact ⟨untouched, fun harmless later =>
    recordAck_sendSide later (untouched.mpr harmless).sendSide⟩

/-- An old ACK from beyond the window. -/
theorem out_of_window_untouched_by_old_ack :
    let seg := peerSegment 65543 0 ackFlag 0 [] (by decide)
    let after := ((process singleSlot (peerPacket 65543 0 ackFlag 0 [])).run
      singleSlotAccepted.memory).2
    OutOfWindow singleSlot (singleSlotAccepted.memory.rx.slots 0) seg ∧
      Untouched (singleSlotAccepted.memory.session 0) (after.session 0) := by
  intro seg after
  have outside : OutOfWindow singleSlot (singleSlotAccepted.memory.rx.slots 0) seg := by
    unfold OutOfWindow
    decide
  have act : Act singleSlot singleSlotAccepted (.task (.packet (peerPacket 65543 0 ackFlag 0 [])))
    ⟨.polling 3, after⟩ := .task (.packet (peerPacket 65543 0 ackFlag 0 [])) rfl
  have plain : Plain seg := ⟨by decide, by decide, by decide⟩
  have harmless : NoEffect (singleSlotAccepted.memory.rx.slots 0)
      (singleSlotAccepted.memory.tx.slots 0) seg := by
    refine Or.inr ⟨⟨by decide, Or.inl (by decide)⟩, ?_⟩
    unfold NextData
    decide
  exact ⟨outside, (out_of_window_untouched singleSlotAccepted_reachable (by decide) (by decide)
    (by decide) act rfl ⟨rfl, rfl, rfl⟩ plain outside).1.mpr harmless⟩

/-- A pure ACK from beyond the window closes the send window, and moves `snd_wl1` so far
that the peer's next update is taken for an old one. -/
theorem out_of_window_closes_window :
    let seg := peerSegment 65543 1 ackFlag 0 [] (by decide)
    let packet := peerPacket 65543 1 ackFlag 0 []
    let update := peerPacket 8 1 ackFlag 2000 []
    let before := singleSlotAccepted.memory
    let after := ((process singleSlot packet).run before).2
    Reachable singleSlot singleSlotAccepted ∧ (before.rx.slots 0).state = .established ∧
      decode singleSlot packet.frame packet.contiguous = some (.segment seg) ∧
      (before.session 0).Matches seg ∧ Plain seg ∧
      OutOfWindow singleSlot (before.rx.slots 0) seg ∧
      ((before.rx.slots 0).sndWl1 = 8 ∧ (before.rx.slots 0).sndWnd = 1000) ∧
      ((after.rx.slots 0).sndWl1 = 65543 ∧ (after.rx.slots 0).sndWnd = 0) ∧
      (((process singleSlot update).run before).2.rx.slots 0).sndWnd = 2000 ∧
      (((process singleSlot update).run after).2.rx.slots 0).sndWnd = 0 := by
  refine ⟨singleSlotAccepted_reachable, by decide, rfl, ⟨rfl, rfl, rfl⟩,
    ⟨by decide, by decide, by decide⟩, ?_, by decide, by decide, by decide, by decide⟩
  unfold OutOfWindow
  decide

end DpdkWrapper.Tcp
