import DpdkWrapper.Tcp.SessionCalls
import DpdkWrapper.Tcp.SessionMoves

/-!
# Sessions over whole runs

Every action of a run steps every session, so an invariant of single sessions that
each `SessionStep` keeps holds in every state of every run.

The first part says what no segment changes: the identity of the connection, its `irs`, and what
has happened before.  The last part counts the connections of a slot, one epoch for each opening.
-/

namespace DpdkWrapper.Tcp

open Wire

/-! ## What a segment leaves alone -/

/-- The connection is still the same one. -/
structure Continues (session session' : Session) : Prop where
  slot : session'.slot = session.slot
  past : session'.past = session.past
  out : session'.out = session.out
  sends : session'.sends = session.sends
  identity : session'.conn.identity = session.conn.identity
  irs : session'.conn.irs = session.conn.irs
  history : session.history <:+ session'.history

namespace Continues

variable {first second third : Session}

theorem refl (session : Session) : Continues session session :=
  ⟨rfl, rfl, rfl, rfl, rfl, rfl, List.suffix_rfl⟩

/-- A segment's parts continue the connection, one after the other. -/
theorem trans (left : Continues first second) (right : Continues second third) :
    Continues first third where
  slot := right.slot.trans left.slot
  past := right.past.trans left.past
  out := right.out.trans left.out
  sends := right.sends.trans left.sends
  identity := right.identity.trans left.identity
  irs := right.irs.trans left.irs
  history := left.history.trans right.history

end Continues

namespace Session

variable (session : Session) (seg : Segment)

theorem terminate_continues (why : TcpEventType) : Continues session (session.terminate why) :=
  ⟨rfl, rfl, rfl, rfl, rfl, rfl, List.suffix_cons _ _⟩

theorem record_continues : Continues session (session.record seg) := by
  have irs : (recordAck seg session.conn).irs = session.conn.irs := by
    obtain ⟨una, wnd, wl1, wl2, same⟩ := recordAck_eq seg session.conn
    rw [same]
  refine ⟨rfl, rfl, rfl, rfl, ?_, ?_, List.suffix_rfl⟩ <;> dsimp only [record, update]
  · split <;> exact recordAck_identity seg session.conn
  · split <;> exact irs

theorem record_state : (session.record seg).conn.state = session.conn.state := by
  obtain ⟨una, wnd, wl1, wl2, same⟩ := recordAck_eq seg session.conn
  simp only [record, update, same]
  split <;> rfl

theorem finishAck_continues : Continues session (session.finishAck seg).2 := by
  unfold finishAck
  split
  · split
    · exact ⟨rfl, rfl, rfl, rfl, rfl, rfl, List.suffix_rfl⟩
    · exact terminate_continues session .closed
    · exact terminate_continues session .closed
    · exact .refl session
  · exact .refl session

end Session

section

variable {seg : Segment} {session session' : Session}

theorem ControlMove.continues (move : ControlMove seg session session') :
    Continues session session' := by
  cases move with
  | sync | abandon => exact ⟨rfl, rfl, rfl, rfl, rfl, rfl, List.suffix_rfl⟩
  | establish | reset | refuse => exact ⟨rfl, rfl, rfl, rfl, rfl, rfl, List.suffix_cons _ _⟩
  | ack => exact (session.record_continues seg).trans (Session.finishAck_continues _ seg)

theorem DataMove.continues (move : DataMove seg session session') :
    Continues session session' := by
  cases move with
  | deliver | closing => exact ⟨rfl, rfl, rfl, rfl, rfl, rfl, List.suffix_cons _ _⟩
  | peerClosed | finished => exact ⟨rfl, rfl, rfl, rfl, rfl, rfl, [_, _], rfl⟩
  | publish => exact ⟨rfl, rfl, rfl, rfl, rfl, rfl, List.suffix_rfl⟩

theorem Session.processData_continues (session : Session) (seg : Segment) :
    Continues session (session.processData seg) :=
  processData_keeps (Continues session) (.refl session) fun continues move => continues.trans move.continues

theorem Session.processSegment_continues (session : Session) (seg : Segment) (k : TcpStack) :
    Continues session (session.processSegment k seg) :=
  processSegment_keeps (Continues session) k (.refl session)
    (fun continues move => continues.trans move.continues)
    fun continues move => continues.trans move.continues

end

/-! ## Runs -/

/-- What every state of a run satisfies, as far as it is needed to describe steps
of its sessions. -/
structure Regular (k : TcpStack) (state : State) : Prop where
  inOrder : InOrder k state
  mss : ∀ i, 0 < (state.memory.session i).opens →
    (state.memory.session i).conn.sendMss ≠ 0

/-- Every action steps every session. -/
theorem Act.session {k : TcpStack} {state state' : State} {action : Action}
    (act : Act k state action state') (regular : Regular k state) (i : Nat) :
    SessionStep k (state.memory.session i) action (state'.memory.session i) := by
  cases act with
  | task task enabled => exact task.session regular.inOrder.accounts regular.inOrder.ready i
  | call call => exact call.session i (regular.mss i)

theorem Regular.initial (k : TcpStack) : Regular k (State.initial k) where
  inOrder := InOrder.initial k
  mss _ opened := absurd opened (Nat.lt_irrefl 0)

theorem SessionStep.mss {k : TcpStack} {session session' : Session} {action : Action}
    (step : SessionStep k session action session')
    (mss : 0 < session.opens → session.conn.sendMss ≠ 0) (opened : 0 < session'.opens) :
    session'.conn.sendMss ≠ 0 := by
  cases step with
  | idle => exact mss opened
  | @opened packet seg peerMss decoded free proper =>
      simp only [Session.openFor, initialized]
      split
      · exact proper
      · exact k.mss_ne_zero
  | @segment packet seg =>
      have continues := session.processSegment_continues seg k
      have same : (session.processSegment k seg).conn.sendMss = session.conn.sendMss :=
        congrArg TcpConnection.Identity.sendMss continues.identity
      rw [Session.opens, continues.past] at opened
      rw [same]
      exact mss opened
  | freed => exact mss opened
  | call wasOpened step => cases step <;> exact mss wasOpened
  | stray out sends unopened => exact mss opened

/-- Tasks and calls keep a state regular. -/
theorem Regular.act {k : TcpStack} {state state' : State} {action : Action}
    (regular : Regular k state) (act : Act k state action state') : Regular k state' where
  inOrder := regular.inOrder.act act
  mss i := (act.session regular i).mss (regular.mss i)

/-- Invariant rule for sessions: what holds of a session at the start of a run and
is kept by every step that the run allows holds in every state of the run. -/
theorem Run.session {k : TcpStack} {ok : State → Action → Prop} {start state : State}
    (i : Nat) (holds : Session → Prop) (run : Run k ok start state)
    (regular : Regular k start) (base : holds (start.memory.session i))
    (keeps : ∀ state action session', ok state action → holds (state.memory.session i) →
      SessionStep k (state.memory.session i) action session' → holds session') :
    Regular k state ∧ holds (state.memory.session i) := by
  refine run.invariant (fun state => Regular k state ∧ holds (state.memory.session i))
    ⟨regular, base⟩ ?_
  rintro state action state' ⟨regular, held⟩ act allowed
  exact ⟨regular.act act, keeps state action _ allowed held (act.session regular i)⟩

/-! ## The connections of a slot, one after another -/

/-- The history of the connection that a slot's `n`-th opening began. -/
def Session.epoch (session : Session) (n : Nat) : List RxEntry :=
  (session.history :: session.past).reverse.getD n []

namespace Session

variable {session session' : Session} {n : Nat}

theorem epoch_opens (session : Session) : session.epoch session.opens = session.history := by
  simp [epoch, opens, List.getD_eq_getElem?_getD]

theorem epoch_of_lt (earlier : n < session.opens) :
    session.epoch n = session.past.reverse.getD n [] := by
  rw [epoch, List.reverse_cons, List.getD_eq_getElem?_getD,
    List.getElem?_append_left (by simpa [opens] using earlier), ← List.getD_eq_getElem?_getD]

/-- Opening a slot again leaves what its connections have done. -/
theorem openFor_epoch {k : TcpStack} {seg : Segment} {peerMss : BitVec 16} {rand : BitVec 64}
    (known : n ≤ session.opens) :
    (session.openFor k seg peerMss rand).epoch n = session.epoch n := by
  rw [epoch_of_lt (Nat.lt_succ_of_le known)]
  rfl

theorem openFor_opens {k : TcpStack} {seg : Segment} {peerMss : BitVec 16} {rand : BitVec 64} :
    (session.openFor k seg peerMss rand).opens = session.opens + 1 := rfl

end Session

section

variable {k : TcpStack} {session session' : Session} {action : Action}
include k session session' action

/-- A step opens the slot or leaves its earlier connections alone. -/
theorem SessionStep.past (step : SessionStep k session action session') :
    session'.past = session.past ∨
      ∃ packet seg peerMss, action = .task (.packet packet) ∧
        decode k packet.frame packet.contiguous = some (.segment seg) ∧
        session.conn.state = .free ∧
        session' = session.openFor k seg peerMss packet.rand := by
  cases step with
  | opened decoded free => exact Or.inr ⟨_, _, _, rfl, decoded, free, rfl⟩
  | segment => exact Or.inl (session.processSegment_continues _ k).past
  | call _ step => cases step <;> exact Or.inl rfl
  | _ => exact Or.inl rfl

theorem SessionStep.opens_le (step : SessionStep k session action session') :
    session.opens ≤ session'.opens := by
  rcases step.past with same | ⟨_, _, _, _, _, _, rfl⟩
  · rw [Session.opens, Session.opens, same]
  · exact Nat.le_succ _

/-- What an earlier connection has done stays as it is. -/
theorem SessionStep.epoch {n : Nat} (step : SessionStep k session action session')
    (earlier : n < session.opens) : session'.epoch n = session.epoch n ∧ n < session'.opens := by
  rcases step.past with same | ⟨_, _, _, _, _, _, rfl⟩
  · have sameOpens : session'.opens = session.opens := by rw [Session.opens, same, Session.opens]
    rw [Session.epoch_of_lt earlier, Session.epoch_of_lt (by omega), same, sameOpens]
    exact ⟨rfl, earlier⟩
  · exact ⟨Session.openFor_epoch (Nat.le_of_lt earlier), Nat.lt_succ_of_lt earlier⟩

/-- Until the slot is opened again a history only grows. -/
theorem SessionStep.history (step : SessionStep k session action session')
    (same : session'.opens = session.opens) : session.history <:+ session'.history := by
  cases step with
  | opened => exact absurd same (Nat.succ_ne_self _)
  | segment => exact (session.processSegment_continues _ k).history
  | call _ step => cases step <;> exact List.suffix_rfl
  | _ => exact List.suffix_rfl

theorem SessionStep.identity (step : SessionStep k session action session')
    (same : session'.opens = session.opens) : session'.conn.identity = session.conn.identity := by
  cases step with
  | opened => exact absurd same (Nat.succ_ne_self _)
  | segment => exact (session.processSegment_continues _ k).identity
  | call _ step => cases step <;> rfl
  | _ => rfl

end

/-- Every reachable state is regular. -/
theorem Reachable.regular {k : TcpStack} {state : State} (reachable : Reachable k state) :
    Regular k state :=
  Run.invariant (Regular k) reachable (Regular.initial k)
    fun _ _ _ regular act _ => regular.act act

end DpdkWrapper.Tcp
