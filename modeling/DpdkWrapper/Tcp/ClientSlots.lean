import DpdkWrapper.Tcp.Names

/-!
# The connection that a client's packets go to

The flow table leads a client's packets to the slot that has its tuple, is not free and
does not await its release.  What the application has been told about, and is not the
connection in that slot, has ended.

By the slot accounting there is at most one such slot, so `Memory.slotOf` is well defined and
has the two characterizations `slotOf_eq_some` and `slotOf_eq_none`.  That a connection which has
ended is flagged, and that ACKs are due only for connections in the flow table, are invariants
of runs.
-/

namespace DpdkWrapper.Tcp

open Threads Wire

/-- The connection in the slot is the one that the tuple's packets go to. -/
structure IsSlotOf (k : TcpStack) (tuple : Tuple) (mem : Memory) (i : Nat) : Prop where
  inside : i < k.maxConnections
  live : (mem.rx.slots i).state ≠ .free
  unawaited : i ∉ mem.rx.awaitingRelease
  named : tuple.ofConnection (mem.rx.slots i) = true

section

variable {k : TcpStack} {tuple : Tuple} {mem mem' : Memory} {i : Nat}

/-- The slots with a flow entry are those in use that do not await their release. -/
theorem inFlow_iff_live (accounts : Accounting k mem.rx) (inside : i < k.maxConnections) :
    (mem.rx.summary i).InFlow ↔
      (mem.rx.slots i).state ≠ .free ∧ i ∉ mem.rx.awaitingRelease := by
  rw [accounts.inFlow_iff inside, accounts.partitioned.mem_freeSlots]
  simp [inside]

theorem IsSlotOf.inFlow (isSlot : IsSlotOf k tuple mem i) (accounts : Accounting k mem.rx) :
    (mem.rx.summary i).InFlow :=
  (inFlow_iff_live accounts isSlot.inside).mpr ⟨isSlot.live, isSlot.unawaited⟩

theorem summary_key_iff : (mem.rx.summary i).key = tuple.key ↔
    tuple.ofConnection (mem.rx.slots i) = true := by
  rw [Tuple.ofConnection, Tuple.is_iff]
  exact FlowTable.key_inj

/-- The flow table finds the slot. -/
theorem slotOf_eq_some (accounts : Accounting k mem.rx) :
    mem.slotOf tuple = some i ↔ IsSlotOf k tuple mem i := by
  have small : k.maxConnections ≤ FlowTable.npos :=
    Nat.le_trans (Nat.le_of_lt k.maxConnections_lt) (by decide)
  have unique : ∀ {i j}, IsSlotOf k tuple mem i → IsSlotOf k tuple mem j → i = j := by
    intro i j first second
    obtain ⟨iIp, iPeer, iLocal⟩ := Tuple.is_iff.mp first.named
    obtain ⟨jIp, jPeer, jLocal⟩ := Tuple.is_iff.mp second.named
    have notFree : ∀ {i}, IsSlotOf k tuple mem i → i ∉ mem.rx.freeSlots :=
      fun isSlot listed => isSlot.live ((accounts.partitioned.mem_freeSlots _).mp listed).2
    exact accounts.partitioned.tuples i first.inside j second.inside (notFree first) first.unawaited
      (notFree second) second.unawaited (iIp.trans jIp.symm) (iPeer.trans jPeer.symm)
      (iLocal.trans jLocal.symm)
  rw [Memory.slotOf]
  rcases accounts.flows.find small (FlowTable.key_ne_zero tuple.peerIp_ne_zero tuple.peerPort
    tuple.localPort) with ⟨idx, found, known, inside, inFlow, key⟩ | ⟨absent, others⟩
  · have isSlot : IsSlotOf k tuple mem idx := by
      obtain ⟨live, unawaited⟩ := (inFlow_iff_live accounts inside).mp inFlow
      exact ⟨inside, live, unawaited, summary_key_iff.mp key⟩
    rw [Tuple.key, found, Option.filter_some, if_pos (bne_iff_ne.mpr known), Option.some.injEq]
    constructor
    · rintro rfl
      exact isSlot
    · exact unique isSlot
  · rw [Tuple.key, absent, Option.filter_some, if_neg (by simp)]
    constructor
    · rintro ⟨⟩
    · intro isSlot
      exact absurd (summary_key_iff.mpr isSlot.named)
        (others i isSlot.inside (isSlot.inFlow accounts))

theorem slotOf_eq_none (accounts : Accounting k mem.rx) :
    mem.slotOf tuple = none ↔ ∀ i, ¬IsSlotOf k tuple mem i := by
  rw [Option.eq_none_iff_forall_ne_some]
  exact forall_congr' fun i => not_congr (slotOf_eq_some accounts)

theorem slotOf_congr (accounts : Accounting k mem.rx) (accounts' : Accounting k mem'.rx)
    (same : ∀ i, IsSlotOf k tuple mem' i ↔ IsSlotOf k tuple mem i) :
    mem'.slotOf tuple = mem.slotOf tuple := by
  apply Option.ext
  intro i
  rw [slotOf_eq_some accounts, slotOf_eq_some accounts', same]

theorem IsSlotOf.unique {j : Nat} (first : IsSlotOf k tuple mem i)
    (second : IsSlotOf k tuple mem j) (accounts : Accounting k mem.rx) : i = j :=
  Option.some.inj
    (((slotOf_eq_some accounts).mpr first).symm.trans ((slotOf_eq_some accounts).mpr second))

/-- The packets of a tuple go to the connection that matches them. -/
theorem isSlot_of_matches (accounts : Accounting k mem.rx) {seg : Segment}
    (inside : i < k.maxConnections) (inFlow : (mem.rx.summary i).InFlow)
    (named : (mem.session i).Matches seg) (own : tuple.ofSegment seg = true) :
    IsSlotOf k tuple mem i := by
  obtain ⟨live, unawaited⟩ := (inFlow_iff_live accounts inside).mp inFlow
  refine ⟨inside, live, unawaited, ?_⟩
  have same : tuple.ofConnection (mem.rx.slots i) = tuple.ofSegment seg :=
    Tuple.ofConnection_of_matches named
  exact same.trans own

theorem not_isSlot_of_unknown (accounts : Accounting k mem.rx) {seg : Segment}
    (unknown : Unknown k mem seg) (own : tuple.ofSegment seg = true) (i : Nat) :
    ¬IsSlotOf k tuple mem i := by
  intro isSlot
  exact unknown i isSlot.inside (isSlot.inFlow accounts)
    (Tuple.matches_of_ofConnection isSlot.named own)

end

/-! ## How connections end -/

/-- What is known about a connection that has ended. -/
structure Ended (session : Session) : Prop where
  terminated : session.conn.state = .closed → session.conn.terminated = true
  released : session.conn.state = .free → events session.history ≠ [] →
    hasReleased session.out.outFlags = true
  unopened : session.opens = 0 → session.history = []

/-- A terminal connection is marked as such. -/
def TerminalFlagged (session : Session) : Prop :=
  session.conn.state = .closed → session.conn.terminated = true

namespace Session

variable {session : Session} (seg : Segment)

/-- The step lemma: whichever way a segment ends a connection, it is flagged as terminated. -/
theorem processSegment_marked (k : TcpStack) (marked : TerminalFlagged session) :
    TerminalFlagged (session.processSegment k seg) := by
  refine processSegment_keeps TerminalFlagged k marked (fun {first _} marked move => ?_)
    fun marked move => ?_
  · cases move with
    | sync =>
        intro closed
        refine marked ?_
        have synced : first.conn.state.synced (hasFinSent first.out.outFlags) = .closed := closed
        revert synced
        cases hasFinSent first.out.outFlags <;> cases first.conn.state <;> decide
    | abandon | establish => rintro ⟨⟩
    | reset => exact fun _ => rfl
    | refuse => exact marked
    | ack =>
        have recorded : TerminalFlagged (first.record seg) := by
          obtain ⟨una, wnd, wl1, wl2, same⟩ := recordAck_eq seg first.conn
          intro closed
          rw [record_state] at closed
          have terminated := marked closed
          simp only [record, update, same]
          split <;> exact terminated
        unfold finishAck
        split
        · split
          · rintro ⟨⟩
          · exact fun _ => rfl
          · exact fun _ => rfl
          · exact recorded
        · exact recorded
  · cases move with
    | deliver | publish => exact marked
    | peerClosed | closing => rintro ⟨⟩
    | finished => exact fun _ => rfl

/-- Only a handshake that is given up leaves its slot free. -/
theorem processSegment_free (k : TcpStack) (standing : StateConsistent session)
    (live : session.conn.state ≠ .free)
    (freed : (session.processSegment k seg).conn.state = .free) :
    (session.processSegment k seg).history = [] := by
  have owes := Owes.processSegment k seg live
  have early : session.conn.state = .synReceived := by
    by_contra accepted
    have still := owes.accepted (TcpState.accepted_iff.mpr ⟨live, accepted⟩)
    rw [freed] at still
    cases still
  have silent := (standing.unaccepted early).2
  obtain ⟨same, _, _⟩ := session.processSegment_unaccepted seg k early
  rw [same] at freed ⊢
  unfold processHandshake at freed ⊢
  split at freed
  · rw [if_pos ‹_›]
    split <;> exact silent
  · rw [if_neg ‹_›]
    split at freed
    · rw [if_pos ‹_›]
      exact silent
    · have accepted := (processData_proceeds (session.establish seg) seg).accepted rfl
      rw [freed] at accepted
      cases accepted

end Session

namespace Ended

variable {k : TcpStack} {session session' : Session} {action : Action}

/-- Tasks and calls keep what is known about connections that have ended. -/
theorem step (ended : Ended session) (steady : SessionInvariant session)
    (step : SessionStep k session action session') : Ended session' := by
  cases step with
  | idle => exact ended
  | opened => exact ⟨by rintro ⟨⟩, by rintro ⟨⟩, by rintro ⟨⟩⟩
  | @segment packet seg decoded named live =>
      have continues := session.processSegment_continues seg k
      refine ⟨Session.processSegment_marked seg k ended.terminated, ?_, ?_⟩
      · intro freed told
        rw [Session.processSegment_free seg k steady.standing live freed] at told
        exact absurd rfl told
      · intro never
        rw [Session.opens, continues.past] at never
        exact absurd (steady.unopened never) live
  | freed task closed released => exact ⟨by rintro ⟨⟩, fun _ _ => released, ended.unopened⟩
  | call opened step =>
      have never : session'.opens = 0 → session'.history = [] := by
        have same : session'.opens = session.opens := by cases step <;> rfl
        rw [same]
        omega
      cases step with
      | finished => exact ⟨ended.terminated, fun _ _ => hasReleased_or_released _, never⟩
      | released => exact ⟨ended.terminated, fun _ _ => hasReleased_or_released _, never⟩
      | _ => exact ⟨ended.terminated, ended.released, never⟩
  | stray out sends unopened =>
      refine ⟨ended.terminated, fun _ told => ?_, ended.unopened⟩
      exact absurd (congrArg events (ended.unopened unopened)) told

/-- It holds of every slot of every reachable state. -/
theorem reachable {state : State} (reachable : Reachable k state) (i : Nat) :
    Ended (state.memory.session i) := by
  have both := (Run.session i (fun session => SessionInvariant session ∧ Ended session) reachable
    (Regular.initial k) ⟨.of_free rfl, ?_⟩
    fun _ _ _ _ holds step => ⟨holds.1.step step, holds.2.step holds.1 step⟩).2
  · exact both.2
  · exact ⟨by rintro ⟨⟩, fun _ told => absurd rfl told, fun _ => rfl⟩

end Ended

/-! ## Runs -/

section

variable {k : TcpStack} {state state' : State} {action : Action} {tuple : Tuple}

theorem Act.opens_le (act : Act k state action state') (reachable : Reachable k state) (i : Nat) :
    opens i state.memory.rx.log ≤ opens i state'.memory.rx.log := by
  have step := (act.session reachable.regular i).opens_le
  rwa [session_opens, session_opens] at step

theorem Act.sparse (act : Act k state action state') (reachable : Reachable k state)
    (sparse : FewOpensEach state'.memory) : FewOpensEach state.memory :=
  fun i => Nat.lt_of_le_of_lt (act.opens_le reachable i) (sparse i)

/-- Only slots of the array are ever opened. -/
theorem Reachable.inside (reachable : Reachable k state) {i : Nat}
    (opened : 0 < (state.memory.session i).opens) : i < k.maxConnections := by
  induction reachable with
  | refl => exact absurd opened (Nat.lt_irrefl 0)
  | @step state state' action run act _ ih =>
      have step := act.session (Reachable.regular run) i
      rcases step.past with same | ⟨packet, seg, _, rfl, decoded, _, grown⟩
      · refine ih ?_
        rwa [Session.opens, same] at opened
      · cases act with
        | @task phase phase' mem task enabled =>
            have accounts : Accounting k mem.rx := (Reachable.inOrder run).accounts
            cases (process_dispatch accounts packet).touches accounts i with
            | apart session =>
                refine ih ?_
                rw [← session]
                exact opened
            | opened _ inside | segment _ inside => exact inside

theorem names_inside (reachable : Reachable k state) {conn : ConnId}
    (given : conn ∈ tuple.names state.memory.rx.log) : conn.slot < k.maxConnections := by
  refine reachable.inside (Nat.pos_of_ne_zero fun never => ?_)
  have ended := Ended.reachable reachable conn.slot
  obtain ⟨event, member, _⟩ := Tuple.mem_names.mp given
  rw [eventsOf_log, ended.unopened never, List.eq_nil_of_length_eq_zero never] at member
  cases member

/-- An ACK is due only for a connection that has its flow entry. -/
structure DueInFlow (k : TcpStack) (mem : Memory) (i : Nat) : Prop where
  inside : i < k.maxConnections
  unawaited : i ∉ mem.rx.awaitingRelease

/-- An ACK is due only for a slot with a flow entry, in every reachable state. -/
theorem Reachable.attended (reachable : Reachable k state) {i : Nat}
    (pending : (state.memory.rx.slots i).ackPending = true) : DueInFlow k state.memory i := by
  induction reachable with
  | refl => cases pending
  | @step state state' action run act _ ih =>
      have accounts : Accounting k state.memory.rx := (Reachable.inOrder run).accounts
      have coalesced := Reachable.coalesced run
      have idle : ∀ {mem : Memory}, (mem.rx.slots i).ackPending = false →
          (mem.rx.slots i).ackPending = true → DueInFlow k mem i := by
        intro mem unset set
        rw [unset] at set
        cases set
      cases act with
      | @task phase phase' mem task enabled =>
          cases Phase.next_cases enabled with
          | beginPoll =>
              exact idle ((beginPoll_settles mem).idle i (coalesced.idle rfl i)) pending
          | endPoll env =>
              exact idle
                (endPoll_acknowledges coalesced.owing (Reachable.loaded run).room env i) pending
          | packet received =>
              have dispatch := process_dispatch accounts received
              have awaiting := dispatch.awaitingRelease
              cases dispatch.touches accounts i with
              | apart _ same =>
                  obtain ⟨inside, unawaited⟩ := ih (same.symm.trans pending)
                  exact ⟨inside, awaiting ▸ unawaited⟩
              | opened _ _ _ _ _ unset => exact idle unset pending
              | segment _ inside inFlow =>
                  exact ⟨inside, awaiting ▸ ((inFlow_iff_live accounts inside).mp inFlow).2⟩
      | @call phase mem call =>
          have rx := (call.run_frame k mem).rx
          rw [rx] at pending
          obtain ⟨inside, unawaited⟩ := ih pending
          exact ⟨inside, by rwa [rx]⟩

end

end DpdkWrapper.Tcp
