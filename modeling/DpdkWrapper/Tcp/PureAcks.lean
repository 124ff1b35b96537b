import DpdkWrapper.Tcp.Capacity
import DpdkWrapper.Tcp.InboundStream

/-!
# Coalesced ACKs

A segment queues its ACK by slot number, and `flush_acks` sends it at the end of the
poll.  In between the slot may be given up and opened for another peer.  `Owing` is the
invariant of `ack_list` and `ack_pending` that keeps such an ACK from reaching the
wrong peer.

The invariant is kept by packets, by calls and by the end of a poll.  A connection that is reset
gives up its flag and keeps its entry.  So what is flushed is the ACK of a connection that has
queued one in this poll and has not been reset since, once and with the newest number.
-/

namespace DpdkWrapper.Tcp

open Threads Wire

/-! ## Segments that owe an ACK -/

/-- A connection that goes on, and is not reset. -/
structure Proceeds (session session' : Session) : Prop where
  accepted : session.conn.state.accepted = true → session'.conn.state.accepted = true
  reset : told .reset session'.history = told .reset session.history

namespace Proceeds

variable {first second third : Session}

theorem refl (session : Session) : Proceeds session session :=
  ⟨id, rfl⟩

theorem trans (left : Proceeds first second) (right : Proceeds second third) :
    Proceeds first third :=
  ⟨fun accepted => right.accepted (left.accepted accepted), right.reset.trans left.reset⟩

end Proceeds

namespace Session

variable (session : Session) (seg : Segment)

theorem setState_proceeds {state : TcpState} (accepted : state.accepted = true) :
    Proceeds session (session.setState state) :=
  ⟨fun _ => accepted, rfl⟩

theorem closed_proceeds : Proceeds session (session.terminate .closed) :=
  ⟨fun _ => rfl, by simp [terminate, push, note, update, makeEvent]⟩

theorem syncOutFlags_proceeds : Proceeds session session.syncOutFlags := by
  rw [syncOutFlags_eq]
  refine ⟨?_, rfl⟩
  intro accepted
  change (session.conn.state.synced _).accepted = true
  cases hasFinSent session.out.outFlags <;> cases state : session.conn.state <;>
    rw [state] at accepted <;> first | rfl | cases accepted

theorem finishAck_proceeds : Proceeds session (session.finishAck seg).2 := by
  unfold finishAck
  split
  · split
    · exact session.setState_proceeds rfl
    · exact session.closed_proceeds
    · exact session.closed_proceeds
    · exact .refl session
  · exact .refl session

/-- An ACK leaves the connection accepted and does not reset it. -/
theorem processAck_proceeds : Proceeds session (session.processAck seg).2 := by
  unfold processAck
  split
  · exact ⟨id, by simp [note]⟩
  · have recorded : Proceeds session (session.record seg) :=
      ⟨fun accepted => by rwa [record_state], rfl⟩
    exact recorded.trans (finishAck_proceeds _ seg)

/-- Nor does data. -/
theorem processData_proceeds : Proceeds session (session.processData seg) := by
  refine processData_keeps (Proceeds session) (.refl session) fun proceeds move => proceeds.trans ?_
  cases move with
  | deliver => exact ⟨id, by simp [push, note, update, makeEvent]⟩
  | peerClosed => exact ⟨fun _ => rfl, by simp [takeFin, push, note, setState, update, makeEvent]⟩
  | closing => exact ⟨fun _ => rfl, by simp [takeFin, note, setState, update]⟩
  | finished => exact ⟨fun _ => rfl, by simp [takeFin, terminate, push, note, update, makeEvent]⟩
  | publish => exact ⟨id, rfl⟩

/-- Only a segment that takes up sequence space brings a FIN. -/
theorem processData_finConsumed (open' : finConsumed session.history = false)
    (consumed : finConsumed (session.processData seg).history = true) : occupies seg = true := by
  unfold processData at consumed
  split at consumed
  · rw [open'] at consumed
    cases consumed
  · split at consumed
    · rw [open'] at consumed
      cases consumed
    · rename_i busy
      rw [occupies_eq, Bool.eq_false_iff.mpr busy, Bool.not_false]

/-- A segment for a synchronized connection. -/
theorem processSegment_synchronized (k : TcpStack) (accepted : session.conn.state.accepted = true)
    (live : session.conn.state ≠ .closed) :
    session.processSegment k seg = session.syncOutFlags.processSynchronized k seg ∧
      session.owes seg = (!seg.has rstFlag && (seg.has synFlag || (seg.has ackFlag &&
        (seqGt seg.ack session.out.sndNxt ||
          ((session.syncOutFlags.processAck seg).1 && occupies seg))))) ∧
      session.cancels k seg = (seg.has rstFlag && rstAcceptable k session.conn seg) := by
  have synced : session.syncOutFlags.conn.state =
      session.conn.state.synced (hasFinSent session.out.outFlags) := by
    rw [syncOutFlags_eq]
    rfl
  rw [processSegment, owes, cancels, synced]
  cases state : session.conn.state with
  | free | synReceived =>
      rw [state] at accepted
      cases accepted
  | closed => exact absurd state live
  | established | closeWait =>
      cases hasFinSent session.out.outFlags <;> exact ⟨rfl, rfl, rfl⟩
  | _ => exact ⟨rfl, rfl, rfl⟩

/-- A segment for a connection that is not yet accepted. -/
theorem processSegment_unaccepted (k : TcpStack) (state : session.conn.state = .synReceived) :
    session.processSegment k seg = session.processHandshake k seg ∧
      session.owes seg = (!seg.has rstFlag && !seg.has synFlag && seg.has ackFlag &&
        seg.ack == session.conn.iss + 1 && occupies seg) ∧
      session.cancels k seg = (seg.has rstFlag && rstAcceptable k session.conn seg) := by
  have synced : session.syncOutFlags = session := by
    rw [syncOutFlags_eq, state]
    change session.setState .synReceived = session
    rw [← state]
    rfl
  rw [processSegment, owes, cancels, synced, state]
  exact ⟨rfl, rfl, rfl⟩

/-- A segment for a terminal connection. -/
theorem processSegment_closed (k : TcpStack) (state : session.conn.state = .closed) :
    session.processSegment k seg = session ∧ session.owes seg = false ∧
      session.cancels k seg = false := by
  have synced : session.syncOutFlags = session := by
    rw [syncOutFlags_eq, state]
    change session.setState .closed = session
    rw [← state]
    rfl
  rw [processSegment, owes, cancels, synced, state]
  exact ⟨rfl, rfl, rfl⟩

/-- No segment both queues an ACK and takes one back. -/
theorem uncancelled_of_owes {session : Session} {seg : Segment} (k : TcpStack)
    (owed : session.owes seg = true) : session.cancels k seg = false := by
  by_cases free : session.conn.state = .free
  · rw [cancels, free]
  · by_cases closed : session.conn.state = .closed
    · rw [cancels, closed]
    · by_cases early : session.conn.state = .synReceived
      · obtain ⟨_, owes, cancels⟩ := session.processSegment_unaccepted seg k early
        rw [owes] at owed
        simp only [Bool.and_eq_true, Bool.not_eq_true'] at owed
        rw [cancels, owed.1.1.1.1, Bool.false_and]
      · obtain ⟨_, owes, cancels⟩ := session.processSegment_synchronized seg k
          (TcpState.accepted_iff.mpr ⟨free, early⟩) closed
        rw [owes] at owed
        simp only [Bool.and_eq_true, Bool.not_eq_true'] at owed
        rw [cancels, owed.1, Bool.false_and]

end Session

/-- What has not ended has not been reset. -/
theorem StateConsistent.unreset {session : Session} (standing : StateConsistent session)
    (live : session.conn.state ≠ .free) (unclosed : session.conn.state ≠ .closed) :
    told .reset session.history = false := by
  have stands := standing.stands
  cases state : session.conn.state <;> rw [state] at stands
  case free => exact absurd state live
  case closed => exact absurd state unclosed
  case synReceived | established | closeWait => exact stands.2.2.2
  all_goals exact stands.2.2.2.2

/-- What a segment does to a connection, as far as the ACK that it owes is concerned. -/
structure Owes (k : TcpStack) (session : Session) (seg : Segment) (session' : Session) :
    Prop where
  accepted : session.conn.state.accepted = true → session'.conn.state.accepted = true
  owed : session.owes seg = true →
    session.conn.state ≠ .closed ∧ session'.conn.state.accepted = true
  cancelled : session.cancels k seg = true → session.conn.state.accepted = true →
    session'.conn.state = .closed
  reset : session.cancels k seg = false →
    told .reset session'.history = told .reset session.history
  closed : session.conn.state = .closed → session'.conn.state = .closed
  fin : finConsumed session.history = false → finConsumed session'.history = true →
    session.owes seg = true ∧ session.cancels k seg = false

namespace Owes

variable {k : TcpStack} {session : Session} {seg : Segment}

/-- A segment to an accepted connection. -/
theorem synchronized (accepted : session.conn.state.accepted = true)
    (live : session.conn.state ≠ .closed) :
    Owes k session seg (session.processSegment k seg) := by
  obtain ⟨same, owes, cancels⟩ := session.processSegment_synchronized seg k accepted live
  have synced := session.syncOutFlags_proceeds
  have syncedInbox := session.syncOutFlags_sameInbox
  have rcvNxt : rstAcceptable k session.syncOutFlags.conn seg =
      rstAcceptable k session.conn seg := by
    rw [rstAcceptable, rstAcceptable, syncedInbox.rcvNxt]
  -- a segment that neither resets nor brings anything
  have kept : ∀ session', Proceeds session.syncOutFlags session' →
      SameInbox session.syncOutFlags session' → session.cancels k seg = false →
      Owes k session seg session' := by
    intro session' proceeds inbox uncancelled
    have whole := synced.trans proceeds
    refine ⟨whole.accepted, fun _ => ⟨live, whole.accepted accepted⟩, ?_, fun _ => whole.reset,
      fun closed => absurd closed live, ?_⟩
    · rw [uncancelled]
      rintro ⟨⟩
    · rw [inbox.fin, syncedInbox.fin]
      intro before after
      rw [before] at after
      cases after
  rw [same, Session.processSynchronized]
  split
  · rename_i rst
    split
    · rename_i acceptable
      rw [rcvNxt] at acceptable
      have inbox := syncedInbox.trans (session.syncOutFlags.terminate_sameInbox (Or.inr rfl))
      refine ⟨fun _ => rfl, fun _ => ⟨live, rfl⟩, fun _ _ => rfl, ?_, fun _ => rfl, ?_⟩
      · rw [cancels, rst, acceptable]
        rintro ⟨⟩
      · rw [inbox.fin]
        intro before after
        rw [before] at after
        cases after
    · rename_i unacceptable
      rw [rcvNxt] at unacceptable
      refine kept _ (.refl _) (.refl _) ?_
      rw [cancels, Bool.eq_false_iff.mpr unacceptable, Bool.and_false]
  · rename_i rst
    rw [Bool.not_eq_true] at rst
    have uncancelled : session.cancels k seg = false := by rw [cancels, rst, Bool.false_and]
    split
    · exact kept _ (.refl _) (.refl _) uncancelled
    · rename_i plain
      simp only [Bool.or_eq_true, Bool.not_eq_true', not_or, Bool.not_eq_false] at plain
      have ack := plain.2
      have acked := session.syncOutFlags.processAck_proceeds seg
      have ackedInbox := session.syncOutFlags.processAck_sameInbox seg
      dsimp only
      split
      · rename_i goesOn
        have data := (synced.trans acked).trans
          (Session.processData_proceeds (session.syncOutFlags.processAck seg).2 seg)
        refine ⟨data.accepted, fun _ => ⟨live, data.accepted accepted⟩, ?_, fun _ => data.reset,
          fun closed => absurd closed live, ?_⟩
        · rw [uncancelled]
          rintro ⟨⟩
        · intro before after
          rw [← syncedInbox.fin, ← ackedInbox.fin] at before
          have occupied := Session.processData_finConsumed _ seg before after
          rw [owes, rst, ack, goesOn, occupied]
          exact ⟨by simp, uncancelled⟩
      · exact kept _ acked ackedInbox uncancelled

/-- A segment during the handshake. -/
theorem unaccepted (state : session.conn.state = .synReceived) :
    Owes k session seg (session.processSegment k seg) := by
  obtain ⟨same, owes, cancels⟩ := session.processSegment_unaccepted seg k state
  have early : session.conn.state.accepted = false := by
    rw [state]
    rfl
  have live : session.conn.state ≠ .closed := by
    rw [state]
    rintro ⟨⟩
  -- a segment that does not complete the handshake leaves the history alone
  have kept : ∀ session', session'.history = session.history → session.owes seg = false →
      Owes k session seg session' := by
    intro session' history unowed
    refine ⟨?_, ?_, ?_, fun _ => by rw [history], fun closed => absurd closed live, ?_⟩
    · rw [early]
      rintro ⟨⟩
    · rw [unowed]
      rintro ⟨⟩
    · rw [early]
      exact fun _ => by rintro ⟨⟩
    · rw [history]
      intro before after
      rw [before] at after
      cases after
  rw [same, Session.processHandshake]
  split
  · rename_i rst
    have unowed : session.owes seg = false := by simp [owes, rst]
    split
    · exact kept _ rfl unowed
    · exact kept _ rfl unowed
  · rename_i rst
    rw [Bool.not_eq_true] at rst
    split
    · rename_i other
      refine kept _ rfl ?_
      rw [owes]
      simp only [Bool.or_eq_true, Bool.not_eq_true', bne_iff_ne] at other
      rcases other with (syn | noAck) | unexpected
      · simp [syn]
      · simp [noAck]
      · rw [beq_false_of_ne unexpected, Bool.and_false, Bool.false_and]
    · rename_i completes
      simp only [Bool.or_eq_true, Bool.not_eq_true', bne_iff_ne, not_or, Bool.not_eq_true,
        Bool.not_eq_false, not_not] at completes
      obtain ⟨⟨syn, ack⟩, expected⟩ := completes
      have data := Session.processData_proceeds (session.establish seg) seg
      have reset : told .reset (session.establish seg).history = told .reset session.history := by
        simp [Session.establish, Session.push, Session.note, Session.setState, Session.update,
          Session.makeEvent]
      have uncancelled : session.cancels k seg = false := by rw [cancels, rst, Bool.false_and]
      refine ⟨fun _ => data.accepted rfl, fun _ => ⟨live, data.accepted rfl⟩, ?_,
        fun _ => data.reset.trans reset, fun closed => absurd closed live, ?_⟩
      · rw [uncancelled]
        rintro ⟨⟩
      · intro before after
        rw [← (session.establish_sameInbox seg state).fin] at before
        have occupied := Session.processData_finConsumed _ seg before after
        rw [owes, rst, syn, ack, expected, occupied]
        exact ⟨by simp, uncancelled⟩

/-- The step lemma for segments, whichever state the connection is in. -/
theorem processSegment (k : TcpStack) (seg : Segment) (live : session.conn.state ≠ .free) :
    Owes k session seg (session.processSegment k seg) := by
  by_cases accepted : session.conn.state.accepted = true
  · by_cases closed : session.conn.state = .closed
    · obtain ⟨same, owes, cancels⟩ := session.processSegment_closed seg k closed
      rw [same]
      refine ⟨id, ?_, ?_, fun _ => rfl, id, ?_⟩
      · rw [owes]
        rintro ⟨⟩
      · rw [cancels]
        rintro ⟨⟩
      · intro before after
        rw [before] at after
        cases after
    · exact synchronized accepted closed
  · refine unaccepted ?_
    rw [TcpState.accepted_iff, not_and, not_not] at accepted
    exact accepted live

end Owes

/-! ## The list of ACKs -/

/-- What `ack_list` and `ack_pending` say.  An entry without the flag is that of a
connection that has been reset. -/
structure Owing (mem : Memory) : Prop where
  nodup : mem.rx.ackList.Nodup
  listed : ∀ i, (mem.rx.slots i).ackPending = true → i ∈ mem.rx.ackList
  accepted : ∀ i ∈ mem.rx.ackList, (mem.session i).conn.state.accepted = true
  pending : ∀ i ∈ mem.rx.ackList,
    (mem.rx.slots i).ackPending = true ∨ (mem.session i).conn.state = .closed
  unreset : ∀ i, (mem.rx.slots i).ackPending = true →
    told .reset (mem.session i).history = false

namespace Owing

variable {k : TcpStack} {mem mem' : Memory}

theorem of_nothing (ackList : mem.rx.ackList = [])
    (pending : ∀ i, (mem.rx.slots i).ackPending = false) : Owing mem := by
  refine ⟨?_, ?_, ?_, ?_, ?_⟩
  · rw [ackList]
    exact List.nodup_nil
  · intro i set
    rw [pending] at set
    cases set
  · rw [ackList]
    exact fun _ member => absurd member List.not_mem_nil
  · rw [ackList]
    exact fun _ member => absurd member List.not_mem_nil
  · intro i set
    rw [pending] at set
    cases set

/-- Only the list of ACKs, the slots and their histories count. -/
theorem congr (owing : Owing mem) (ackList : mem'.rx.ackList = mem.rx.ackList)
    (slots : mem'.rx.slots = mem.rx.slots)
    (sessions : ∀ i, (mem'.session i).history = (mem.session i).history) :
    Owing mem' := by
  have states : ∀ i, (mem'.session i).conn.state = (mem.session i).conn.state := by
    intro i
    rw [session_state, session_state, slots]
  constructor
  · rw [ackList]
    exact owing.nodup
  · rw [ackList, slots]
    exact owing.listed
  · rw [ackList]
    intro i member
    rw [states]
    exact owing.accepted i member
  · rw [ackList, slots]
    intro i member
    rw [states]
    exact owing.pending i member
  · rw [slots]
    intro i set
    rw [sessions]
    exact owing.unreset i set

/-- A slot that is not yet accepted is opened again. -/
theorem opened (owing : Owing mem) {idx : Nat} {payload : List Byte} {reply : Option TxSegment}
    (early : (mem.session idx).conn.state.accepted = false)
    (serves : Serves idx payload false true reply mem.rx mem'.rx)
    (others : ∀ i, i ≠ idx → mem'.session i = mem.session i) : Owing mem' := by
  have ackList : mem'.rx.ackList = mem.rx.ackList := serves.ackList
  have pending : (mem'.rx.slots idx).ackPending = false := serves.pending
  have unlisted : ∀ i ∈ mem.rx.ackList, i ≠ idx := by
    rintro i member rfl
    rw [owing.accepted i member] at early
    cases early
  have set : ∀ i, (mem'.rx.slots i).ackPending = true →
      i ≠ idx ∧ (mem.rx.slots i).ackPending = true := by
    intro i set
    have other : i ≠ idx := by
      rintro rfl
      rw [pending] at set
      cases set
    rw [serves.others i other] at set
    exact ⟨other, set⟩
  constructor
  · rw [ackList]
    exact owing.nodup
  · rw [ackList]
    exact fun i now => owing.listed i (set i now).2
  · rw [ackList]
    intro i member
    rw [others i (unlisted i member)]
    exact owing.accepted i member
  · rw [ackList]
    intro i member
    rw [others i (unlisted i member), serves.others i (unlisted i member)]
    exact owing.pending i member
  · intro i now
    obtain ⟨other, before⟩ := set i now
    rw [others i other]
    exact owing.unreset i before

/-- A segment is processed. -/
theorem segment (owing : Owing mem) {idx : Nat} {seg : Segment} {payload : List Byte}
    {reply : Option TxSegment} (standing : StateConsistent (mem.session idx))
    (live : (mem.session idx).conn.state ≠ .free)
    (serves : Serves idx payload ((mem.session idx).owes seg)
      ((mem.session idx).cancels k seg) reply mem.rx mem'.rx)
    (owes : Owes k (mem.session idx) seg (mem'.session idx))
    (others : ∀ i, i ≠ idx → mem'.session i = mem.session i) : Owing mem' := by
  have ackList := serves.ackList
  have set := serves.pending
  have kept : ∀ i ∈ mem.rx.ackList, i ∈ mem'.rx.ackList := by
    intro i member
    rw [ackList]
    split
    · exact List.mem_append_left [idx] member
    · exact member
  have entries : ∀ i ∈ mem'.rx.ackList,
      i ∈ mem.rx.ackList ∨ i = idx ∧ (mem.session idx).owes seg = true := by
    intro i member
    rw [ackList] at member
    split at member
    · rename_i appended
      rcases List.mem_append.mp member with old | new
      · exact Or.inl old
      · exact Or.inr ⟨List.mem_singleton.mp new, (Bool.and_eq_true_iff.mp appended).1⟩
    · exact Or.inl member
  constructor
  case nodup =>
    rw [ackList]
    split
    · rename_i appended
      simp only [Bool.and_eq_true, Bool.not_eq_true'] at appended
      rw [← List.concat_eq_append]
      refine List.Nodup.concat (fun member => ?_) owing.nodup
      -- a listed slot without the flag is closed, and then owes nothing
      rcases owing.pending idx member with pending | closed
      · rw [appended.2] at pending
        cases pending
      · exact (owes.owed appended.1).1 closed
    · exact owing.nodup
  case listed =>
    intro i now
    by_cases here : i = idx
    · subst here
      rw [set] at now
      simp only [Bool.and_eq_true, Bool.not_eq_true', Bool.or_eq_true] at now
      cases pending : (mem.rx.slots i).ackPending with
      | true => exact kept i (owing.listed i pending)
      | false =>
          rw [ackList, pending]
          rw [pending] at now
          rw [if_pos (by simpa using now.2)]
          exact List.mem_append_right _ (List.mem_singleton_self i)
    · rw [serves.others i here] at now
      exact kept i (owing.listed i now)
  case accepted =>
    intro i member
    by_cases here : i = idx
    · subst here
      rcases entries i member with old | ⟨_, owed⟩
      · exact owes.accepted (owing.accepted i old)
      · exact (owes.owed owed).2
    · rw [others i here]
      rcases entries i member with old | ⟨same, _⟩
      · exact owing.accepted i old
      · exact absurd same here
  case pending =>
    intro i member
    by_cases here : i = idx
    · subst here
      rw [set]
      cases cancelled : (mem.session i).cancels k seg with
      | true =>
          rcases entries i member with old | ⟨_, owed⟩
          · exact Or.inr (owes.cancelled cancelled (owing.accepted i old))
          · rw [Session.uncancelled_of_owes k owed] at cancelled
            cases cancelled
      | false =>
          rcases entries i member with old | ⟨_, owed⟩
          · rcases owing.pending i old with pending | closed
            · rw [pending]
              exact Or.inl rfl
            · exact Or.inr (owes.closed closed)
          · rw [owed, Bool.or_true]
            exact Or.inl rfl
    · rw [serves.others i here, others i here]
      rcases entries i member with old | ⟨same, _⟩
      · exact owing.pending i old
      · exact absurd same here
  case unreset =>
    intro i now
    by_cases here : i = idx
    · subst here
      rw [set] at now
      simp only [Bool.and_eq_true, Bool.not_eq_true', Bool.or_eq_true] at now
      rw [owes.reset now.1]
      rcases now.2 with pending | owed
      · exact owing.unreset i pending
      · exact standing.unreset live (owes.owed owed).1
    · rw [serves.others i here] at now
      rw [others i here]
      exact owing.unreset i now

end Owing

/-! ## Packets -/

/-- A segment without any flag but ACK. -/
def IsPureAck (packet : Packet) : Prop :=
  ∃ segment : TxSegment, packet = .tcp segment ∧ segment.flags = ackFlag

section

variable {k : TcpStack} {packet : RxPacket} {mem mem' : Memory}

/-- A packet keeps the list of ACKs in step with the connections that are owed one. -/
theorem Dispatch.owing (dispatch : Dispatch k packet mem mem')
    (accounts : Accounting k mem.rx) (steady : ∀ i, SessionInvariant (mem.session i))
    (owing : Owing mem) : Owing mem' := by
  cases dispatch with
  | other _ answers | refused _ _ _ answers =>
      exact owing.congr answers.ackList answers.slots fun i => by rw [answers.session]
  | @opened seg idx rest peerMss _ _ _ free =>
      have listed : idx ∈ mem.rx.freeSlots := by
        rw [free]
        exact List.mem_cons_self
      have state := ((accounts.partitioned.mem_freeSlots idx).mp listed).2
      have sessions := openSlot_sessions k idx seg peerMss packet.rand packet.pool mem
      refine owing.opened ?_ (openSlot_serves k idx seg peerMss packet.rand packet.pool mem) ?_
      · rw [session_state, state]
        rfl
      · intro i other
        rw [sessions, if_neg other]
  | @segment seg idx _ inside inFlow =>
      have live : (mem.session idx).conn.state ≠ .free :=
        accounts.ne_free_of_inFlow inside inFlow
      have turns := processSegment_turns idx seg mem k packet.pool
      refine owing.segment (steady idx).standing live
        (processSegment_serves k idx seg packet.pool mem) ?_ turns.others
      rw [turns.here]
      exact .processSegment k seg live

theorem synAck_not_pure {c : TcpConnection} {pool : Bool} :
    ∀ reply ∈ synAck k c pool, ¬IsPureAck (.tcp reply) := by
  rintro reply built ⟨segment, same, flags⟩
  cases same
  rw [buildSegment_eq_some built] at flags
  exact absurd flags (show synFlag ||| ackFlag ≠ ackFlag by decide)

theorem rstFor_not_pure {seg : Segment} {pool : Bool} :
    ∀ reply ∈ rstFor k seg pool, ¬IsPureAck (.tcp reply) := by
  rintro reply built ⟨segment, same, flags⟩
  cases same
  unfold rstFor at built
  dsimp only at built
  split at built
  · rw [buildSegment_eq_some built] at flags
    exact absurd flags (show rstFlag ≠ ackFlag by decide)
  · rw [buildSegment_eq_some built] at flags
    exact absurd flags (show rstFlag ||| ackFlag ≠ ackFlag by decide)

/-- What is queued at once is no pure ACK. -/
theorem Session.reply_not_pure {session : Session} {seg : Segment} {pool : Bool} :
    ∀ reply ∈ session.reply k seg pool, ¬IsPureAck (.tcp reply) := by
  intro reply built
  unfold Session.reply at built
  split at built
  · split at built
    · cases built
    · split at built
      · split at built
        · exact synAck_not_pure reply built
        · cases built
      · split at built
        · exact rstFor_not_pure reply built
        · cases built
  · cases built

/-- No packet is answered with a pure ACK at once. -/
theorem Dispatch.control (dispatch : Dispatch k packet mem mem') :
    ∃ reply, mem'.rx.control = queued mem.rx.control reply ∧
      ∀ answer ∈ reply, ¬IsPureAck answer := by
  have tcp : ∀ reply : Option TxSegment, (∀ segment ∈ reply, ¬IsPureAck (.tcp segment)) →
      ∀ answer ∈ reply.map Packet.tcp, ¬IsPureAck answer := by
    intro reply impure answer member
    obtain ⟨segment, built, rfl⟩ := Option.map_eq_some_iff.mp member
    exact impure segment built
  cases dispatch with
  | @other reply _ _ answers =>
      refine ⟨_, answers.control, ?_⟩
      intro answer member
      obtain ⟨frame, _, rfl⟩ := Option.map_eq_some_iff.mp member
      rintro ⟨segment, same, _⟩
      cases same
  | @refused seg _ _ _ _ answers =>
      refine ⟨_, answers.control, tcp _ ?_⟩
      unfold refusal
      split
      · rintro _ ⟨⟩
      · exact rstFor_not_pure
  | opened =>
      exact ⟨_, (openSlot_serves k _ _ _ _ _ mem).control, tcp _ synAck_not_pure⟩
  | segment =>
      exact ⟨_, (processSegment_serves k _ _ _ mem).control, tcp _ Session.reply_not_pure⟩

theorem mem_queued {control : List Packet} {reply : Option Packet} {answer : Packet}
    (member : answer ∈ queued control reply) : answer ∈ control ∨ answer ∈ reply := by
  unfold queued at member
  split at member
  · exact Or.inl member
  · split at member
    · exact Or.inl member
    · rcases List.mem_append.mp member with old | new
      · exact Or.inl old
      · rw [List.mem_singleton.mp new]
        exact Or.inr rfl

end

/-! ## Flushing -/

/-- The ACK that `flush_acks` builds for an entry of the list. -/
def pureAck (k : TcpStack) (ackPool : Nat → Bool) (mem : Memory) (entry : Nat × Nat) :
    Option TxSegment :=
  if (mem.rx.slots entry.1).ackPending then
    buildSegment k.mbufRoom (ackPool entry.2) (replyAddr k (mem.rx.slots entry.1))
      (mem.tx.slots entry.1).sndNxt (mem.rx.slots entry.1).rcvNxtLocal ackFlag
      k.receiveWindow [] 0
  else
    none

/-- What sending the ACKs of these entries does. -/
structure Flushed (k : TcpStack) (ackPool : Nat → Bool) (entries : List (Nat × Nat))
    (mem mem' : Memory) : Prop where
  slots : ∀ i, mem'.rx.slots i =
    if i ∈ entries.map Prod.fst then { mem.rx.slots i with ackPending := false }
    else mem.rx.slots i
  control : mem'.rx.control =
    mem.rx.control ++ (entries.filterMap (pureAck k ackPool mem)).map .tcp
  others : mem' = ⟨{ mem.rx with
    slots := mem'.rx.slots
    control := mem'.rx.control
    stats := mem'.rx.stats }, mem.tx⟩

section

variable {k : TcpStack} {ackPool : Nat → Bool} {mem : Memory}

theorem queueControl_others (rx : Receiver) (packet : Option Packet) :
    rx.queueControl packet = { rx with
      control := (rx.queueControl packet).control
      stats := (rx.queueControl packet).stats } := by
  unfold Receiver.queueControl
  split <;> try split
  all_goals rfl

theorem queued_of_room {control : List Packet} (room : control.length < maxControl)
    (packet : Option Packet) : queued control packet = control ++ packet.toList := by
  cases packet with
  | none => exact (List.append_nil control).symm
  | some packet => exact if_neg (Nat.ne_of_lt room)

/-- One ACK of the flush. -/
theorem flushAck_flushed (entry : Nat × Nat) (room : mem.rx.control.length < maxControl) :
    Flushed k ackPool [entry] mem ((flushAck k ackPool entry).run mem).2 := by
  rw [flushAck, run_viewRx_bind, Program.run_when]
  split
  · rename_i pending
    rw [run_loadSndNxt_bind, run_inbound]
    constructor
    · intro i
      simp
    · refine (queueControl_control _ _).trans ((queued_of_room room _).trans ?_)
      rw [List.filterMap_cons, pureAck, if_pos pending]
      cases buildSegment _ _ _ _ _ _ _ _ _ <;> rfl
    · dsimp only
      rw [queueControl_others]
      rfl
  · rename_i idle
    rw [Bool.not_eq_true] at idle
    constructor
    · intro i
      split
      · rename_i here
        obtain rfl : i = entry.1 := by simpa using here
        rw [← idle]
      · rfl
    · simp [pureAck, idle]
    · rfl

/-- The loop of `flush_acks`.  The entries are of different slots, so that no iteration
sees what the others have done. -/
theorem forEach_flushed (entries : List (Nat × Nat)) (nodup : (entries.map Prod.fst).Nodup)
    (room : mem.rx.control.length + entries.length ≤ maxControl) :
    Flushed k ackPool entries mem
      ((Program.forEach (flushAck k ackPool) entries).run mem).2 := by
  induction entries generalizing mem with
  | nil =>
      refine ⟨fun i => (if_neg (by simp)).symm, ?_, rfl⟩
      exact (List.append_nil _).symm
  | cons entry rest ih =>
      rw [List.length_cons] at room
      rw [List.map_cons, List.nodup_cons] at nodup
      rw [Program.run_forEach_cons]
      have first : Flushed k ackPool [entry] mem ((flushAck k ackPool entry).run mem).2 :=
        flushAck_flushed entry (by omega)
      generalize ((flushAck k ackPool entry).run mem).2 = middle at first
      have fewer : middle.rx.control.length ≤ mem.rx.control.length + 1 := by
        have single := List.length_filterMap_le (pureAck k ackPool mem) [entry]
        rw [first.control, List.length_append, List.length_map]
        rw [List.length_singleton] at single
        omega
      have second : Flushed k ackPool rest middle
          ((Program.forEach (flushAck k ackPool) rest).run middle).2 := ih nodup.2 (by omega)
      have same : ∀ i ∈ rest.map Prod.fst, middle.rx.slots i = mem.rx.slots i := by
        intro i member
        rw [first.slots, if_neg]
        rintro here
        rw [List.map_singleton, List.mem_singleton] at here
        exact nodup.1 (here ▸ member)
      have tx : middle.tx = mem.tx := by rw [first.others]
      constructor
      · intro i
        rw [second.slots]
        by_cases later : i ∈ rest.map Prod.fst
        · rw [if_pos later, same i later, if_pos (by simp [later])]
        · rw [if_neg later, first.slots]
          simp [later]
      · have unchanged : rest.filterMap (pureAck k ackPool middle) =
            rest.filterMap (pureAck k ackPool mem) := by
          refine List.filterMap_congr fun later member => ?_
          rw [pureAck, pureAck, same _ (List.mem_map_of_mem member), tx]
        rw [second.control, first.control, unchanged, List.append_assoc, ← List.map_append,
          ← List.filterMap_append, List.singleton_append]
      · rw [second.others, first.others]

/-- `flush_acks` as a whole. -/
theorem flushAcks_flushed (owing : Owing mem)
    (room : mem.rx.control.length + mem.rx.ackList.length ≤ maxControl) :
    let mem' := ((flushAcks k ackPool).run mem).2
    (∀ i, mem'.rx.slots i = { mem.rx.slots i with ackPending := false }) ∧
      mem'.rx.control = mem.rx.control ++
        (mem.rx.ackList.zipIdx.filterMap (pureAck k ackPool mem)).map .tcp ∧
      mem' = ⟨{ mem.rx with
        slots := mem'.rx.slots
        control := mem'.rx.control
        stats := mem'.rx.stats
        ackList := [] }, mem.tx⟩ := by
  have listed : mem.rx.ackList.zipIdx.map Prod.fst = mem.rx.ackList :=
    List.zipIdx_map_fst 0 mem.rx.ackList
  have flushed : Flushed k ackPool mem.rx.ackList.zipIdx mem
      ((Program.forEach (flushAck k ackPool) mem.rx.ackList.zipIdx).run mem).2 :=
    forEach_flushed mem.rx.ackList.zipIdx (by rw [listed]; exact owing.nodup)
      (by rw [List.length_zipIdx]; exact room)
  rw [flushAcks, run_viewRx_bind, Program.run_bind', run_inbound]
  refine ⟨?_, flushed.control, ?_⟩
  · intro i
    refine (flushed.slots i).trans ?_
    rw [listed]
    split
    · rfl
    · rename_i unlisted
      have idle : (mem.rx.slots i).ackPending = false := by
        rw [← Bool.not_eq_true]
        exact fun pending => unlisted (owing.listed i pending)
      rw [← idle]
  · dsimp only
    rw [flushed.others]

end

/-- What reaping and finalizing are to ACKs and to the log: no ACK becomes due, and at most faults
are recorded. -/
structure Settles (mem mem' : Memory) : Prop where
  idle : ∀ i, (mem.rx.slots i).ackPending = false → (mem'.rx.slots i).ackPending = false
  log : ∃ count, mem'.rx.log = List.replicate count .fault ++ mem.rx.log

namespace Settles

theorem refl (mem : Memory) : Settles mem mem :=
  ⟨fun _ idle => idle, 0, rfl⟩

theorem trans {first second third : Memory} (left : Settles first second)
    (right : Settles second third) : Settles first third := by
  obtain ⟨count, log⟩ := left.log
  obtain ⟨more, log'⟩ := right.log
  refine ⟨fun i idle => right.idle i (left.idle i idle), more + count, ?_⟩
  rw [log', log, ← List.append_assoc, List.replicate_append_replicate]

theorem releaseSlot {mem : Memory} {idx : Nat} {rx : Receiver}
    (slots : rx.slots = (mem.rx.releaseSlot idx).slots) (log : rx.log = mem.rx.log) :
    Settles mem ⟨rx, mem.tx⟩ := by
  refine ⟨fun i idle => ?_, 0, log⟩
  dsimp only
  rw [slots, Receiver.releaseSlot_slots]
  split
  · rfl
  · exact idle

end Settles

theorem reapLoop_settles (fuel : Nat) : ∀ i, (reapLoop fuel i).Always Settles := by
  induction fuel with
  | zero => exact fun _ => .modify fun _ => ⟨fun _ idle => idle, 1, rfl⟩
  | succ fuel ih =>
      intro i
      refine .bind (.read .refl _) fun found => ?_
      cases found with
      | none => trivial
      | some idx =>
          refine .bind (.read .refl _) fun out => ?_
          exact .ite (.bind (.modify fun mem => .releaseSlot rfl rfl) fun _ => ih i) (ih (i + 1))

theorem beginPoll_settles (mem : Memory) : Settles mem (beginPoll.run mem).2 := by
  have always : beginPoll.Always Settles := by
    refine .bind (.modify fun _ => ⟨fun _ idle => idle, 0, rfl⟩) fun _ => ?_
    exact .bind (.read .refl _) fun count => reapLoop_settles _ 0
  exact always.run .refl (fun _ _ _ => .trans) mem

theorem finalizeSlot_settles (idx : Nat) : (finalizeSlot idx).Always Settles := by
  refine .bind (.modify fun mem => ?_) fun _ => ?_
  · obtain ⟨⟨slots, _⟩, log⟩ := eraseFlow_lists idx
      (mem.rx.updateSlot idx fun c => { c with finalizePending := false })
    constructor
    · intro i idle
      dsimp only
      rw [slots, Receiver.updateSlot_slots]
      split <;> exact idle
    · rcases log with same | fault
      · exact ⟨0, same⟩
      · exact ⟨1, fault⟩
  · refine .bind (.read .refl _) fun _ => ?_
    exact .ite (.modify fun _ => .releaseSlot rfl rfl)
      (.modify fun _ => ⟨fun _ idle => idle, 0, rfl⟩)

theorem finalize_settles (mem : Memory) : Settles mem (finalize.run mem).2 := by
  have always : finalize.Always Settles := by
    refine .bind (.read .refl _) fun entries => ?_
    exact (Program.Always.forEach finalizeSlot_settles entries).bind fun _ =>
      Program.Always.modify fun _ => ⟨fun _ idle => idle, 0, rfl⟩
  exact always.run .refl (fun _ _ _ => .trans) mem

/-- At the end of a poll no ACK is due. -/
theorem endPoll_acknowledges {k : TcpStack} {mem : Memory} (owing : Owing mem)
    (room : mem.rx.control.length + mem.rx.ackList.length ≤ maxControl) (env : FlushEnv)
    (i : Nat) : (((endPoll k env).run mem).2.rx.slots i).ackPending = false := by
  rw [endPoll, Program.run_bind', run_inbound_bind]
  refine (finalize_settles _).idle i ?_
  change (((flushAcks k env.ackPool).run mem).2.rx.slots i).ackPending = false
  rw [(flushAcks_flushed owing room).1]

/-! ## Runs -/

/-- What holds of the queued ACKs between tasks. -/
structure Coalesced (state : State) : Prop where
  owing : Owing state.memory
  impure : ∀ packet ∈ state.memory.rx.control, ¬IsPureAck packet
  idle : state.phase = .idle → ∀ i, (state.memory.rx.slots i).ackPending = false

theorem Loaded.room {count : Nat} {mem : Memory} (loaded : Loaded ⟨.polling count, mem⟩) :
    mem.rx.control.length + mem.rx.ackList.length ≤ maxControl :=
  Nat.le_trans loaded.2.replies (Nat.le_trans loaded.1 (by decide))

theorem Load.nothing {rx : Receiver} (load : Load 0 rx) : rx.control = [] ∧ rx.ackList = [] := by
  have replies := load.replies
  exact ⟨List.eq_nil_of_length_eq_zero (by omega), List.eq_nil_of_length_eq_zero (by omega)⟩

theorem Coalesced.of_nothing {state : State} (control : state.memory.rx.control = [])
    (ackList : state.memory.rx.ackList = [])
    (pending : ∀ i, (state.memory.rx.slots i).ackPending = false) : Coalesced state := by
  refine ⟨.of_nothing ackList pending, ?_, fun _ => pending⟩
  rw [control]
  exact fun _ member => absurd member List.not_mem_nil

/-- Tasks and calls keep the list of ACKs in step. -/
theorem Coalesced.act {k : TcpStack} {state state' : State} {action : Action}
    (coalesced : Coalesced state) (reachable : Reachable k state)
    (act : Act k state action state') : Coalesced state' := by
  have inOrder := reachable.inOrder
  have loaded := reachable.loaded
  cases act with
  | @task phase phase' mem task enabled =>
      cases Phase.next_cases enabled with
      | beginPoll =>
          obtain ⟨control, ackList⟩ := (beginPoll_load inOrder loaded).nothing
          exact .of_nothing control ackList fun i =>
            (beginPoll_settles mem).idle i (coalesced.idle rfl i)
      | packet received =>
          have dispatch := process_dispatch inOrder.accounts received
          obtain ⟨reply, control, impure⟩ := dispatch.control
          refine ⟨dispatch.owing inOrder.accounts
            (fun i => SessionInvariant.reachable reachable i) coalesced.owing, ?_, by rintro ⟨⟩⟩
          intro packet member
          change packet ∈ ((process k received).run mem).2.rx.control at member
          rw [control] at member
          rcases mem_queued member with old | new
          · exact coalesced.impure packet old
          · exact impure packet new
      | endPoll env =>
          obtain ⟨ackList, control⟩ := endPoll_replies k mem env
          exact .of_nothing control ackList
            (endPoll_acknowledges coalesced.owing loaded.room env)
  | @call phase mem call =>
      have rx := (call.run_frame k mem).rx
      refine ⟨coalesced.owing.congr (by rw [rx]) (by rw [rx]) ?_, ?_, ?_⟩
      · intro i
        rw [session_history, session_history, rx]
      · rw [rx]
        exact coalesced.impure
      · rw [rx]
        exact coalesced.idle

/-- In every reachable state the list of ACKs names each connection that is owed one, once. -/
theorem Reachable.coalesced {k : TcpStack} {state : State} (reachable : Reachable k state) :
    Coalesced state := by
  induction reachable with
  | refl => exact .of_nothing rfl rfl fun _ => rfl
  | step run act _ ih => exact ih.act run act

/-! ## One poll -/

/-- The slot still holds the same connection. -/
structure SameConn (session session' : Session) : Prop where
  past : session'.past = session.past
  identity : session'.conn.identity = session.conn.identity

namespace SameConn

variable {first second third : Session}

theorem refl (session : Session) : SameConn session session :=
  ⟨rfl, rfl⟩

theorem trans (left : SameConn first second) (right : SameConn second third) :
    SameConn first third :=
  ⟨right.past.trans left.past, right.identity.trans left.identity⟩

theorem processSegment (session : Session) (seg : Segment) (k : TcpStack) :
    SameConn session (session.processSegment k seg) :=
  ⟨(session.processSegment_continues seg k).past, (session.processSegment_continues seg k).identity⟩

theorem call (k : TcpStack) (mem : Memory) (call : Call) (i : Nat) :
    SameConn (mem.session i) (((call.code k).run mem).2.session i) := by
  have rx := (call.run_frame k mem).rx
  constructor <;> rw [Memory.session, Memory.session, rx]

theorem connId {mem mem' : Memory} {i : Nat}
    (persists : SameConn (mem.session i) (mem'.session i)) :
    (mem'.session i).connId = (mem.session i).connId := by
  have generation := congrArg TcpConnection.Identity.generation persists.identity
  exact congrArg (ConnId.mk i) generation

theorem replyAddr {mem mem' : Memory} {i : Nat}
    (persists : SameConn (mem.session i) (mem'.session i)) (k : TcpStack) :
    Tcp.replyAddr k (mem'.rx.slots i) = Tcp.replyAddr k (mem.rx.slots i) := by
  have identity := persists.identity
  simp only [TcpConnection.identity, TcpConnection.Identity.mk.injEq, Memory.session,
    TcpConnection.core] at identity
  simp [Tcp.replyAddr, identity]

end SameConn

section

variable {k : TcpStack} {packet : RxPacket} {mem mem' : Memory} {i : Nat}

/-- An ACK that is due after a packet was due before, or the packet is a segment of this
connection that owes it. -/
theorem Touches.pending (touches : Touches k packet mem mem' i)
    (set : (mem'.rx.slots i).ackPending = true) :
    SameConn (mem.session i) (mem'.session i) ∧
      ((mem.rx.slots i).ackPending = true ∨
        ∃ seg, decode k packet.frame packet.contiguous = some (.segment seg) ∧
          (mem.session i).Matches seg ∧ (mem.session i).owes seg = true) := by
  cases touches with
  | apart session pending =>
      rw [session]
      exact ⟨.refl _, Or.inl (pending.symm.trans set)⟩
  | opened _ _ _ _ _ pending => cases pending.symm.trans set
  | @segment seg decoded _ _ named session _ pending =>
      rw [session]
      refine ⟨.processSegment _ seg k, ?_⟩
      rw [pending] at set
      simp only [Bool.and_eq_true, Bool.or_eq_true] at set
      rcases set.2 with before | owed
      · exact Or.inl before
      · exact Or.inr ⟨seg, decoded, named, owed⟩

/-- A terminal connection whose ACK is due. -/
structure TerminalDue (mem : Memory) (i : Nat) : Prop where
  closed : (mem.rx.slots i).state = .closed
  pending : (mem.rx.slots i).ackPending = true

/-- Packets leave a terminal connection alone. -/
theorem Touches.lingers (touches : Touches k packet mem mem' i) (lingers : TerminalDue mem i) :
    TerminalDue mem' i ∧ SameConn (mem.session i) (mem'.session i) := by
  have stays (same : mem'.session i = mem.session i)
      (pending : (mem'.rx.slots i).ackPending = true) :
      TerminalDue mem' i ∧ SameConn (mem.session i) (mem'.session i) := by
    refine ⟨⟨?_, pending⟩, ?_⟩
    · rw [← session_state, same]
      exact lingers.closed
    · rw [same]
      exact .refl _
  cases touches with
  | apart session pending => exact stays session (pending.trans lingers.pending)
  | opened _ _ free => cases free.symm.trans lingers.closed
  | @segment seg _ _ _ _ session _ pending =>
      obtain ⟨same, owes, cancels⟩ := (mem.session i).processSegment_closed seg k lingers.closed
      refine stays (session.trans same) ?_
      rw [pending, owes, cancels, lingers.pending]
      rfl

/-- A connection that the peer's FIN ends has an ACK due. -/
theorem Touches.finished (touches : Touches k packet mem mem' i)
    (accounts : Accounting k mem.rx)
    (before : finConsumed (mem.session i).history = false)
    (consumed : finConsumed (mem'.session i).history = true)
    (closed : (mem'.rx.slots i).state = .closed) : TerminalDue mem' i := by
  refine ⟨closed, ?_⟩
  cases touches with
  | apart session =>
      rw [session, before] at consumed
      cases consumed
  | opened _ _ _ _ session =>
      rw [session] at consumed
      cases consumed
  | @segment seg _ inside inFlow _ session _ pending =>
      rw [session] at consumed
      obtain ⟨owed, uncancelled⟩ := (Owes.processSegment k seg
        (accounts.ne_free_of_inFlow inside inFlow)).fin before consumed
      rw [pending, owed, uncancelled, Bool.or_true]
      rfl

end

/-- The actions between the start and the end of a poll. -/
def DuringPoll (_ : State) (action : Action) : Prop :=
  action ≠ .task .beginPoll ∧ ∀ env, action ≠ .task (.endPoll env)

theorem Run.reachable {k : TcpStack} {ok : State → Action → Prop} {start state : State}
    (reachable : Reachable k start) (run : Run k ok start state) : Reachable k state := by
  induction run with
  | refl => exact reachable
  | step _ act _ ih => exact ih.step act trivial

/-- In the run from `start` a segment for the connection in slot `i` has queued an ACK. -/
def QueuedSince (k : TcpStack) (start : State) (i : Nat) (state : State) : Prop :=
  ∃ before packet seg after, Run k DuringPoll start before ∧
    Act k before (.task (.packet packet)) after ∧ Run k DuringPoll after state ∧
    decode k packet.frame packet.contiguous = some (.segment seg) ∧
    (before.memory.session i).Matches seg ∧ (before.memory.session i).owes seg = true ∧
    SameConn (before.memory.session i) (state.memory.session i)

section

variable {k : TcpStack} {start state state' : State} {action : Action} {i : Nat}

/-- Calls and further packets of the poll. -/
theorem QueuedSince.step (queued : QueuedSince k start i state) (act : Act k state action state')
    (allowed : DuringPoll state action)
    (persists : SameConn (state.memory.session i) (state'.memory.session i)) :
    QueuedSince k start i state' := by
  obtain ⟨before, packet, seg, after, left, turn, right, decoded, named, owed, same⟩ := queued
  exact ⟨before, packet, seg, after, left, turn, right.step act allowed, decoded, named, owed,
    same.trans persists⟩

/-- A terminal connection keeps its slot until the end of the poll. -/
theorem Run.lingers (run : Run k DuringPoll start state) (reachable : Reachable k start)
    (lingers : TerminalDue start.memory i) :
    TerminalDue state.memory i ∧ SameConn (start.memory.session i) (state.memory.session i) := by
  induction run with
  | refl => exact ⟨lingers, .refl _⟩
  | @step state state' action run act allowed ih =>
      have reached := run.reachable reachable
      cases act with
      | @task phase phase' mem task enabled =>
          cases task with
          | beginPoll => exact absurd rfl allowed.1
          | endPoll env => exact absurd rfl (allowed.2 env)
          | packet packet =>
              have accounts := reached.inOrder.accounts
              obtain ⟨still, persists⟩ :=
                ((process_dispatch accounts packet).touches accounts i).lingers ih.1
              exact ⟨still, ih.2.trans persists⟩
      | @call phase mem call =>
          have rx := (call.run_frame k mem).rx
          refine ⟨⟨?_, ?_⟩, ih.2.trans (.call k mem call i)⟩
          · rw [rx]
            exact ih.1.closed
          · rw [rx]
            exact ih.1.pending

end

/-- The ACKs that `flush_acks` queues, with the slots they are for. -/
def pureAcks (k : TcpStack) (ackPool : Nat → Bool) (mem : Memory) : List (Nat × TxSegment) :=
  mem.rx.ackList.zipIdx.filterMap fun entry => (pureAck k ackPool mem entry).map (entry.1, ·)

section

variable {k : TcpStack} {ackPool : Nat → Bool} {mem : Memory}

theorem pureAcks_map_snd :
    (pureAcks k ackPool mem).map Prod.snd =
      mem.rx.ackList.zipIdx.filterMap (pureAck k ackPool mem) := by
  rw [pureAcks, List.map_filterMap]
  refine List.filterMap_congr fun entry _ => ?_
  cases pureAck k ackPool mem entry <;> rfl

/-- The ACKs of the flush are those of the list for which there was an mbuf. -/
theorem mem_pureAcks {i : Nat} {ack : TxSegment} :
    (i, ack) ∈ pureAcks k ackPool mem ↔
      ∃ position, mem.rx.ackList[position]? = some i ∧
        pureAck k ackPool mem (i, position) = some ack := by
  rw [pureAcks, List.mem_filterMap]
  constructor
  · rintro ⟨⟨slot, position⟩, member, built⟩
    obtain ⟨found, same, pair⟩ := Option.map_eq_some_iff.mp built
    obtain ⟨rfl, rfl⟩ := Prod.mk.inj pair
    exact ⟨position, List.mem_zipIdx_iff_getElem?.mp member, same⟩
  · rintro ⟨position, listed, built⟩
    refine ⟨(i, position), List.mem_zipIdx_iff_getElem?.mpr listed, ?_⟩
    rw [built]
    rfl

end

end DpdkWrapper.Tcp
