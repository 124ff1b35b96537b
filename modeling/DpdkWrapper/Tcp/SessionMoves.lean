import DpdkWrapper.Tcp.Session

/-!
# The moves of a segment

`process_segment` on one session, taken apart.  A `ControlMove` is what a segment can do before its
data is looked at, a `DataMove` what its data and its FIN can do, each with what is known of the
session when it happens.  A segment makes some of the former, and then perhaps some of the latter.

So what every move keeps is kept by every segment, and invariants of sessions are proved
without looking at the branches of `process_segment` again.
-/

namespace DpdkWrapper.Tcp

open Relation Wire

/-- The state that `sync_out_flags` leaves. -/
def TcpState.synced (finSent : Bool) : TcpState → TcpState
  | .established => if finSent then .finWait1 else .established
  | .closeWait => if finSent then .lastAck else .closeWait
  | state => state

/-- A segment that reaches `process_ack` on a synchronized connection. -/
structure Plain (seg : Segment) : Prop where
  ack : seg.has ackFlag = true
  syn : seg.has synFlag = false
  rst : seg.has rstFlag = false

/-- What a segment does before its data is looked at. -/
inductive ControlMove (seg : Segment) (session : Session) : Session → Prop
  | sync : ControlMove seg session
      (session.setState (session.conn.state.synced (hasFinSent session.out.outFlags)))
  | abandon (early : session.conn.state = .synReceived) :
      ControlMove seg session (session.setState .free)
  | establish (early : session.conn.state = .synReceived)
      (expected : seg.ack = session.conn.iss + 1) : ControlMove seg session (session.establish seg)
  | reset (accepted : session.conn.state.accepted = true) (live : session.conn.state ≠ .closed) :
      ControlMove seg session (session.terminate .reset)
  | refuse (accepted : session.conn.state.accepted = true) : ControlMove seg session
      (session.note (.ackRefused session.slot seg.ack session.out.sndNxt))
  /-- A published FIN shows in the state by now. -/
  | ack (accepted : session.conn.state.accepted = true)
      (synced : hasFinSent session.out.outFlags = true →
        session.conn.state ≠ .established ∧ session.conn.state ≠ .closeWait)
      (valid : seqGt seg.ack session.out.sndNxt = false) :
      ControlMove seg session ((session.record seg).finishAck seg).2

/-- What the data of a segment and its FIN do. -/
inductive DataMove (seg : Segment) (session : Session) : Session → Prop
  | deliver (receives : session.conn.state.canReceive = true)
      (inOrder : seqGt seg.seq session.conn.rcvNxtLocal = false)
      (new : seqGt (seg.seq + seg.len) session.conn.rcvNxtLocal = true) :
      DataMove seg session ((session.push .data
        (seg.payload.drop (session.conn.rcvNxtLocal - seg.seq).toNat)).update
          fun c => { c with rcvNxtLocal := seg.seq + seg.len })
  | peerClosed (state : session.conn.state = .established) :
      DataMove seg session ((session.takeFin.setState .closeWait).push .peerClosed [])
  | closing (state : session.conn.state = .finWait1) :
      DataMove seg session (session.takeFin.setState .closing)
  | finished (state : session.conn.state = .finWait2) :
      DataMove seg session (session.takeFin.terminate .closed)
  | publish (accepted : session.conn.state ≠ .synReceived) :
      DataMove seg session session.publishRcvNxt

namespace Session

variable (session : Session) (seg : Segment)

/-- `sync_out_flags` is a function of the state and the flag. -/
theorem syncOutFlags_eq : session.syncOutFlags =
    session.setState (session.conn.state.synced (hasFinSent session.out.outFlags)) := by
  obtain ⟨slot, past, conn, out, history, sends⟩ := session
  obtain ⟨peerIp, peerPort, localPort, peerMac, sendMss, iss, state⟩ := conn
  unfold syncOutFlags setState update TcpState.synced
  cases hasFinSent out.outFlags <;> cases state <;> rfl

theorem syncOutFlags_synced (published : hasFinSent session.syncOutFlags.out.outFlags = true) :
    session.syncOutFlags.conn.state ≠ .established ∧
      session.syncOutFlags.conn.state ≠ .closeWait := by
  rw [syncOutFlags_eq] at published ⊢
  have published : hasFinSent session.out.outFlags = true := published
  change session.conn.state.synced _ ≠ _ ∧ session.conn.state.synced _ ≠ _
  rw [published]
  cases session.conn.state <;> decide

theorem processData_moves : ReflTransGen (DataMove seg) session (session.processData seg) := by
  unfold processData
  split
  · exact .refl
  · rename_i receives
    have receives : session.conn.state.canReceive = true := by simpa using receives
    split
    · exact .refl
    · split
      · exact .refl
      · rename_i inOrder
        obtain ⟨delivered, state⟩ : ReflTransGen (DataMove seg) session (session.deliver seg) ∧
            (session.deliver seg).conn.state = session.conn.state := by
          unfold deliver
          split
          · rename_i new
            exact ⟨.single (.deliver receives (by simpa using inOrder) new), rfl⟩
          · exact ⟨.refl, rfl⟩
        rw [← state] at receives
        unfold accept
        dsimp only
        split
        · unfold consumeFin
          split
          · exact (delivered.tail (.peerClosed ‹_›)).tail (.publish (by rintro ⟨⟩))
          · exact (delivered.tail (.closing ‹_›)).tail (.publish (by rintro ⟨⟩))
          · exact (delivered.tail (.finished ‹_›)).tail (.publish (by rintro ⟨⟩))
          · simp_all [TcpState.canReceive]
        · refine delivered.tail (.publish fun early => ?_)
          rw [early] at receives
          cases receives

/-- A segment makes control moves, and if it is plain its data may follow. -/
theorem processSegment_moves (k : TcpStack) :
    ∃ later, ReflTransGen (ControlMove seg) session later ∧
      (session.processSegment k seg = later ∨
        Plain seg ∧ session.processSegment k seg = later.processData seg) := by
  have synced : ReflTransGen (ControlMove seg) session session.syncOutFlags := by
    rw [syncOutFlags_eq]
    exact .single .sync
  unfold processSegment
  dsimp only
  split
  · exact ⟨_, synced, Or.inl rfl⟩
  · exact ⟨_, synced, Or.inl rfl⟩
  · rename_i early
    unfold processHandshake
    split
    · split
      · exact ⟨_, synced.tail (.abandon early), Or.inl rfl⟩
      · exact ⟨_, synced, Or.inl rfl⟩
    · rename_i rst
      split
      · exact ⟨_, synced, Or.inl rfl⟩
      · rename_i ready
        simp only [Bool.or_eq_true, Bool.not_eq_true', bne_iff_ne, not_or, Bool.not_eq_true,
          Bool.not_eq_false, not_not] at ready rst
        exact ⟨_, synced.tail (.establish early ready.2), Or.inr ⟨⟨ready.1.2, ready.1.1, rst⟩, rfl⟩⟩
  · rename_i free closed syn
    have accepted := TcpState.accepted_iff.mpr ⟨free, syn⟩
    unfold processSynchronized
    split
    · split
      · exact ⟨_, synced.tail (.reset accepted closed), Or.inl rfl⟩
      · exact ⟨_, synced, Or.inl rfl⟩
    · rename_i rst
      split
      · exact ⟨_, synced, Or.inl rfl⟩
      · rename_i ready
        simp only [Bool.or_eq_true, Bool.not_eq_true', not_or, Bool.not_eq_true,
          Bool.not_eq_false] at ready rst
        have acked : ReflTransGen (ControlMove seg) session
            (session.syncOutFlags.processAck seg).2 := by
          unfold processAck
          split
          · exact synced.tail (.refuse accepted)
          · rename_i valid
            exact synced.tail (.ack accepted session.syncOutFlags_synced (by simpa using valid))
        dsimp only
        split
        · exact ⟨_, acked, Or.inr ⟨⟨ready.2, ready.1, rst⟩, rfl⟩⟩
        · exact ⟨_, acked, Or.inl rfl⟩

variable {session seg} (holds : Session → Prop)

theorem processData_keeps (start : holds session)
    (data : ∀ {first second}, holds first → DataMove seg first second → holds second) :
    holds (session.processData seg) := by
  have moves := session.processData_moves seg
  generalize session.processData seg = later at moves
  induction moves with
  | refl => exact start
  | tail _ move ih => exact data ih move

theorem control_keeps {later : Session} (moves : ReflTransGen (ControlMove seg) session later)
    (start : holds session)
    (control : ∀ {first second}, holds first → ControlMove seg first second → holds second) :
    holds later := by
  induction moves with
  | refl => exact start
  | tail _ move ih => exact control ih move

/-- What every move keeps is kept by every segment. -/
theorem processSegment_keeps (k : TcpStack) (start : holds session)
    (control : ∀ {first second}, holds first → ControlMove seg first second → holds second)
    (data : ∀ {first second}, holds first → DataMove seg first second → holds second) :
    holds (session.processSegment k seg) := by
  obtain ⟨later, moves, same | ⟨_, same⟩⟩ := session.processSegment_moves seg k
  · rw [same]
    exact control_keeps holds moves start control
  · rw [same]
    exact processData_keeps holds (control_keeps holds moves start control) data

end Session

end DpdkWrapper.Tcp
