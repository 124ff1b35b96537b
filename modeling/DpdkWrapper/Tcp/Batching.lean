import DpdkWrapper.Tcp.Outline
import DpdkWrapper.Tcp.AckNumbers

/-!
# Bursts

How a list of frames is cut into bursts decides when `reap_released`, `flush_acks`,
`flush_control` and `finalize` run.  As long as no connection becomes terminal, all that
they change between two frames is which ACKs are due and which have been sent.

The proof compares the polls of a cut with one long burst of the same frames, which never
flushes.  Both have the same outline after every frame, so the same events and the same
connections; and an ACK that has been sent for a connection is, until the next one is due, the
last one that the long burst would send.
-/

namespace DpdkWrapper.Tcp

open Threads Wire

/-! ## What is read off outlines -/

theorem isControl_unconcerned {entry : RxEntry} (control : entry.isControl = true) (slot : Nat) :
    entry ≠ .opened slot ∧ entry.concerns slot = false ∧ entry.pushed? = none := by
  cases entry with
  | controlSent packet => exact ⟨by rintro ⟨⟩, rfl, rfl⟩
  | _ => cases control

/-- Histories do not mention control packets. -/
theorem history_past_filter (slot : Nat) (log : List RxEntry) :
    history slot (log.filter (!·.isControl)) = history slot log ∧
      past slot (log.filter (!·.isControl)) = past slot log := by
  induction log with
  | nil => exact ⟨rfl, rfl⟩
  | cons entry log ih =>
      obtain ⟨sameHistory, samePast⟩ := ih
      cases control : entry.isControl with
      | true =>
          obtain ⟨other, unconcerned, _⟩ := isControl_unconcerned control slot
          rw [List.filter_cons_of_neg (by simp [control]), sameHistory, samePast,
            history_cons_of_not_concerns other unconcerned, past_cons_of_ne other]
          exact ⟨rfl, rfl⟩
      | false =>
          rw [List.filter_cons_of_pos (by simp [control])]
          by_cases opened : entry = .opened slot
          · subst opened
            rw [history_cons_self, history_cons_self, past_cons_self, past_cons_self, sameHistory,
              samePast]
            exact ⟨rfl, rfl⟩
          · rw [past_cons_of_ne opened, past_cons_of_ne opened]
            refine ⟨?_, samePast⟩
            cases concerned : entry.concerns slot with
            | true => rw [history_cons_of_concerns concerned, history_cons_of_concerns concerned,
                sameHistory]
            | false => rw [history_cons_of_not_concerns opened concerned,
                history_cons_of_not_concerns opened concerned, sameHistory]

theorem events_filter (log : List RxEntry) : events (log.filter (!·.isControl)) = events log := by
  induction log with
  | nil => rfl
  | cons entry log ih =>
      cases control : entry.isControl with
      | true =>
          obtain ⟨_, _, silent⟩ := isControl_unconcerned control 0
          rw [List.filter_cons_of_neg (by simp [control]), ih, events_cons, silent]
          exact (List.append_nil _).symm
      | false =>
          rw [List.filter_cons_of_pos (by simp [control]), events_cons, events_cons, ih]

section

variable {mem mem' : Memory}

theorem session_outline (mem : Memory) (i : Nat) :
    mem.outline.session i = mem.session i := by
  obtain ⟨history, past⟩ := history_past_filter i mem.rx.log
  simp only [Memory.session, Memory.outline, Receiver.outline, history, past]
  rfl

theorem session_of_outline (same : mem.outline = mem'.outline) (i : Nat) :
    mem.session i = mem'.session i := by
  rw [← session_outline, same, session_outline]

theorem accounts_of_outline {k : TcpStack} (same : mem.outline = mem'.outline)
    (accounts : Accounting k mem.rx) : Accounting k mem'.rx := by
  have outlined : Accounting k mem.outline.rx := accounts
  rw [same] at outlined
  exact outlined

theorem state_of_outline (same : mem.outline = mem'.outline) (i : Nat) :
    (mem.rx.slots i).state = (mem'.rx.slots i).state :=
  congrArg (fun session : Session => session.conn.state) (session_of_outline same i)

end

/-! ## One slot and one packet -/

section

variable {k : TcpStack} {packet : RxPacket} {mem mem' : Memory} {i : Nat}

/-- A packet is a segment that the connection in a slot has to acknowledge. -/
def DueNow (k : TcpStack) (packet : RxPacket) (session : Session) : Prop :=
  ∃ seg, decode k packet.frame packet.contiguous = some (.segment seg) ∧
    session.Matches seg ∧ session.owes seg = true

/-- Only a live connection owes an ACK. -/
theorem Session.live_of_owes {session : Session} {seg : Segment} (owed : session.owes seg = true) :
    session.conn.state ≠ .free ∧ session.conn.state ≠ .closed := by
  constructor
  · intro free
    rw [owes, syncOutFlags_eq, free] at owed
    cases owed
  · intro closed
    rw [owes, syncOutFlags_eq, closed] at owed
    cases owed

theorem Session.processData_idle {session : Session} {seg : Segment}
    (idle : occupies seg = false) : session.processData seg = session := by
  rw [occupies_eq, Bool.not_eq_false'] at idle
  unfold processData
  rw [if_pos idle]
  exact ite_self _

/-- Nothing but a segment that owes an ACK changes what an ACK would say. -/
theorem Session.processSegment_unowed {session : Session} {seg : Segment} (k : TcpStack)
    (accepted : session.conn.state.accepted = true) (unowed : session.owes seg = false) :
    (session.processSegment k seg).conn.rcvNxtLocal = session.conn.rcvNxtLocal := by
  by_cases closed : session.conn.state = .closed
  · rw [(session.processSegment_closed seg k closed).1]
  · obtain ⟨same, owes, _⟩ := session.processSegment_synchronized seg k accepted closed
    have synced := session.syncOutFlags_sameInbox.rcvNxt
    have acked := (session.syncOutFlags.processAck_sameInbox seg).rcvNxt
    rw [owes] at unowed
    rw [same, processSynchronized]
    split
    · split
      · exact synced
      · exact synced
    · rename_i unreset
      split
      · exact synced
      · rename_i acks
        dsimp only
        split
        · rename_i proceeds
          simp only [Bool.or_eq_true, not_or, Bool.not_eq_true, Bool.not_eq_false'] at acks
          rw [Bool.eq_false_iff.mpr unreset, acks.1, acks.2, proceeds] at unowed
          have idle : occupies seg = false :=
            (Bool.or_eq_false_iff.mp unowed).2
          rw [processData_idle idle]
          exact acked.trans synced
        · exact acked.trans synced

/-- The ACK that would be sent for a slot. -/
def ackOf (k : TcpStack) (mem : Memory) (i : Nat) : Option TxSegment :=
  buildSegment k.mbufRoom true (replyAddr k (mem.rx.slots i)) (mem.tx.slots i).sndNxt
    (mem.rx.slots i).rcvNxtLocal ackFlag k.receiveWindow [] 0

/-- A connection that has been accepted and has not ended. -/
structure OpenConn (k : TcpStack) (mem : Memory) (i : Nat) : Prop where
  inside : i < k.maxConnections
  accepted : (mem.rx.slots i).state.accepted = true
  unclosed : (mem.rx.slots i).state ≠ .closed

theorem OpenConn.inFlow (lasting : OpenConn k mem i) (accounts : Accounting k mem.rx) :
    (mem.rx.summary i).InFlow :=
  accounts.inFlow_of_live lasting.inside (TcpState.accepted_iff.mp lasting.accepted).1
    lasting.unclosed

/-- Whether a connection lasts is read off the outline. -/
theorem OpenConn.of_outline (lasting : OpenConn k mem i)
    (same : mem.outline = mem'.outline) :
    OpenConn k mem' i := by
  obtain ⟨inside, accepted, unclosed⟩ := lasting
  rw [state_of_outline same] at accepted unclosed
  exact ⟨inside, accepted, unclosed⟩

namespace Touches

variable (touches : Touches k packet mem mem' i)
include touches

/-- An ACK that falls due is queued. -/
theorem sets (accounts : Accounting k mem.rx) (inside : i < k.maxConnections)
    (due : DueNow k packet (mem.session i)) : (mem'.rx.slots i).ackPending = true := by
  obtain ⟨seg, decoded, named, owed⟩ := due
  obtain ⟨unfree, unclosed⟩ := Session.live_of_owes owed
  cases touches with
  | apart _ _ elsewhere =>
      exact absurd named (elsewhere seg decoded inside
        (accounts.inFlow_of_live inside unfree unclosed))
  | opened _ _ free => exact absurd free unfree
  | segment found _ _ _ _ _ pending =>
      cases decoded.symm.trans found
      rw [pending, owed, Session.uncancelled_of_owes k owed, Bool.or_true]
      rfl

/-- An ACK that is due stays so unless the connection is reset. -/
theorem keeps (lasting : OpenConn k mem i) (unended : (mem'.rx.slots i).state ≠ .closed) :
    OpenConn k mem' i ∧ SameConn (mem.session i) (mem'.session i) ∧
      ((mem.rx.slots i).ackPending = true → (mem'.rx.slots i).ackPending = true) := by
  cases touches with
  | apart session pending =>
      rw [session, pending]
      refine ⟨⟨lasting.inside, ?_, unended⟩, .refl _, id⟩
      rw [← session_state, session]
      exact lasting.accepted
  | opened _ _ free => exact absurd free (TcpState.accepted_iff.mp lasting.accepted).1
  | @segment seg _ _ _ _ session _ pending =>
      have live : (mem.session i).conn.state ≠ .free :=
        (TcpState.accepted_iff.mp lasting.accepted).1
      have owes := Owes.processSegment k seg live
      rw [← session] at owes
      refine ⟨⟨lasting.inside, owes.accepted lasting.accepted, unended⟩, ?_, ?_⟩
      · rw [session]
        exact .processSegment _ seg k
      · intro set
        have uncancelled : (mem.session i).cancels k seg = false := by
          rw [← Bool.not_eq_true]
          exact fun cancelled => unended (owes.cancelled cancelled lasting.accepted)
        rw [pending, set, uncancelled]
        rfl

/-- What is due after a packet was due before, or the packet makes it so. -/
theorem pending_iff (accounts : Accounting k mem.rx)
    (lasting : (mem.rx.slots i).ackPending = true → OpenConn k mem i)
    (unended : (mem'.rx.slots i).state = .closed → (mem.rx.slots i).state = .closed) :
    (mem'.rx.slots i).ackPending = true ↔ (mem.rx.slots i).ackPending = true ∨
      i < k.maxConnections ∧ DueNow k packet (mem.session i) := by
  constructor
  · intro set
    cases touches with
    | apart _ pending =>
        rw [pending] at set
        exact Or.inl set
    | opened _ _ _ _ _ pending =>
        rw [pending] at set
        cases set
    | segment decoded inside _ named _ _ pending =>
        rw [pending] at set
        simp only [Bool.and_eq_true, Bool.or_eq_true] at set
        rcases set.2 with before | owed
        · exact Or.inl before
        · exact Or.inr ⟨inside, _, decoded, named, owed⟩
  · rintro (set | ⟨inside, due⟩)
    · have before := lasting set
      exact (touches.keeps before fun closed => before.unclosed (unended closed)).2.2 set
    · exact touches.sets accounts inside due

/-- Only a connection that lasts comes to owe an ACK. -/
theorem lasting (lasting : (mem.rx.slots i).ackPending = true → OpenConn k mem i)
    (unended : (mem'.rx.slots i).state = .closed → (mem.rx.slots i).state = .closed)
    (set : (mem'.rx.slots i).ackPending = true) : OpenConn k mem' i := by
  have keeps : OpenConn k mem i → OpenConn k mem' i := fun before =>
    (touches.keeps before fun closed => before.unclosed (unended closed)).1
  cases touches with
  | apart _ pending =>
      rw [pending] at set
      exact keeps (lasting set)
  | opened _ _ _ _ _ pending =>
      rw [pending] at set
      cases set
  | @segment seg _ inside _ _ session _ pending =>
      rw [pending] at set
      simp only [Bool.and_eq_true, Bool.or_eq_true] at set
      rcases set.2 with before | owed
      · exact keeps (lasting before)
      · obtain ⟨unfree, unclosed⟩ := Session.live_of_owes owed
        have owes := Owes.processSegment k seg unfree
        rw [← session] at owes
        exact ⟨inside, (owes.owed owed).2, fun closed => unclosed (unended closed)⟩

/-- As long as nothing new is due, the same ACK would be sent. -/
theorem ackOf (lasting : OpenConn k mem i) (unended : (mem'.rx.slots i).state ≠ .closed)
    (quiet : ¬DueNow k packet (mem.session i)) : ackOf k mem' i = ackOf k mem i := by
  obtain ⟨_, persists, _⟩ := touches.keeps lasting unended
  have addr := persists.replyAddr k
  have numbers : (mem'.rx.slots i).rcvNxtLocal = (mem.rx.slots i).rcvNxtLocal ∧
      (mem'.tx.slots i).sndNxt = (mem.tx.slots i).sndNxt := by
    cases touches with
    | apart session =>
        exact ⟨congrArg (fun session : Session => session.conn.rcvNxtLocal) session,
          congrArg (fun session : Session => session.out.sndNxt) session⟩
    | opened _ _ free => exact absurd free (TcpState.accepted_iff.mp lasting.accepted).1
    | @segment seg decoded _ _ named session out =>
        refine ⟨?_, by rw [out]⟩
        have unowed : (mem.session i).owes seg = false := by
          rw [← Bool.not_eq_true]
          exact fun owed => quiet ⟨seg, decoded, named, owed⟩
        rw [← session_rcvNxtLocal, session]
        exact Session.processSegment_unowed k lasting.accepted unowed
  rw [Tcp.ackOf, Tcp.ackOf, addr, numbers.1, numbers.2]

end Touches

/-- Slots that await their release are passed over. -/
theorem Dispatch.awaitingRelease (dispatch : Dispatch k packet mem mem') :
    mem'.rx.awaitingRelease = mem.rx.awaitingRelease := by
  have run {taking : Bool} {program : Code Unit} (always : program.Always (Growing taking)) :
      (program.run mem).2.rx.awaitingRelease = mem.rx.awaitingRelease :=
    (always.run (fun mem => Grows.refl mem.rx) (fun _ _ _ => Grows.trans)
      mem).awaitingRelease
  cases dispatch with
  | other _ answers | refused _ _ _ answers => exact answers.awaitingRelease
  | opened => exact run (openSlot_growing k _ _ _ _ _)
  | segment => exact run (processSegment_growing k _ _ _)

/-- If no connection ends with a packet, none is to be finalized. -/
theorem Dispatch.unended (dispatch : Dispatch k packet mem mem')
    (accounts : Accounting k mem.rx) (accounts' : Accounting k mem'.rx)
    (unended : ∀ i, (mem'.rx.slots i).state = .closed → (mem.rx.slots i).state = .closed)
    (nothing : mem.rx.finalizeList = []) : mem'.rx.finalizeList = [] := by
  rw [List.eq_nil_iff_forall_not_mem]
  intro i member
  obtain ⟨inside, finalizing⟩ := (accounts'.finalizing.mem_iff i).mp member
  obtain ⟨closed, pending⟩ := (mem'.rx.slots i).place_eq_finalizing_iff.mp finalizing
  have settled : (mem.rx.slots i).finalizePending = false := by
    rw [← Bool.not_eq_true]
    intro scheduled
    have listed : i ∈ mem.rx.finalizeList := (accounts.finalizing.mem_iff i).mpr ⟨inside,
      (mem.rx.slots i).place_eq_finalizing_iff.mpr ⟨unended i closed, scheduled⟩⟩
    rw [nothing] at listed
    cases listed
  have awaits : i ∈ mem'.rx.awaitingRelease := by
    rw [dispatch.awaitingRelease]
    exact (accounts.awaiting.mem_iff i).mpr ⟨inside,
      (mem.rx.slots i).place_eq_awaiting_iff.mpr ⟨unended i closed, settled⟩⟩
  have awaiting := (mem'.rx.slots i).place_eq_awaiting_iff.mp
    ((accounts'.awaiting.mem_iff i).mp awaits).2
  rw [awaiting.2] at pending
  cases pending

/-- The application has released none of the slots that await it. -/
def Held (mem : Memory) : Prop :=
  ∀ i ∈ mem.rx.awaitingRelease, hasReleased (mem.tx.slots i).outFlags = false

/-- A packet leaves the flags of the slots that await their release alone. -/
theorem Dispatch.held (dispatch : Dispatch k packet mem mem')
    (accounts : Accounting k mem.rx) (held : Held mem) : Held mem' := by
  intro i member
  rw [dispatch.awaitingRelease] at member
  have out : mem'.tx.slots i = mem.tx.slots i := by
    cases dispatch.touches accounts i with
    | apart session => exact congrArg Session.out session
    | opened _ _ free =>
        rw [(accounts.partitioned.awaiting i member).2.1] at free
        cases free
    | segment _ _ _ _ _ out => exact out
  rw [out]
  exact held i member

end

/-! ## The phases of a poll -/

/-- `reap_released` when nothing has been released. -/
theorem reapLoop_held {mem : Memory} (held : Held mem)
    (fuel i : Nat) (within : i ≤ mem.rx.awaitingRelease.length)
    (enough : mem.rx.awaitingRelease.length < fuel + i) :
    ((reapLoop fuel i).run mem).2 = mem := by
  induction fuel generalizing i with
  | zero => exact absurd enough (by omega)
  | succ fuel ih =>
      rw [reapLoop, run_viewRx_bind]
      cases found : mem.rx.awaitingRelease[i]? with
      | none => rfl
      | some idx =>
          have inside := (List.getElem?_eq_some_iff.mp found).1
          dsimp only
          rw [run_loadOutFlags_bind, held idx (List.mem_of_getElem? found),
            if_neg Bool.false_ne_true]
          exact ih (i + 1) inside (by omega)

theorem beginPoll_held {mem : Memory} (held : Held mem) :
    (beginPoll.run mem).2 = ⟨{ mem.rx with events := [] }, mem.tx⟩ := by
  rw [beginPoll, run_inbound_bind, reapReleased, run_viewRx_bind]
  let started : Memory := ⟨{ mem.rx with events := [] }, mem.tx⟩
  have heldStill : Held started := held
  exact reapLoop_held heldStill _ 0 (Nat.zero_le _) (Nat.lt_succ_self _)

/-- Faults are not given to the control queue. -/
theorem Settles.emitted {mem mem' : Memory} (settles : Settles mem mem') :
    Tcp.emitted mem'.rx.log = Tcp.emitted mem.rx.log := by
  obtain ⟨count, log⟩ := settles.log
  rw [log, Tcp.emitted, List.filterMap_append, List.filterMap_replicate_of_none rfl]
  rfl

theorem beginPoll_emitted (mem : Memory) :
    emitted (beginPoll.run mem).2.rx.log = emitted mem.rx.log :=
  (beginPoll_settles mem).emitted

/-- The packets that `flush_control` gives to the queue. -/
def flushed (k : TcpStack) (mem : Memory) (env : FlushEnv) : List Packet :=
  mem.rx.control ++ ((pureAcks k env.ackPool mem).map Prod.snd).map .tcp

theorem emitted_append (later earlier : List RxEntry) :
    emitted (later ++ earlier) = emitted later ++ emitted earlier :=
  List.filterMap_append

theorem emitted_sent (packets : List Packet) :
    emitted (packets.map .controlSent).reverse = packets.reverse := by
  rw [emitted, ← List.map_reverse, List.filterMap_map]
  exact List.filterMap_some

theorem filter_sent (packets : List Packet) :
    ((packets.map RxEntry.controlSent).reverse.filter (!·.isControl)) = [] := by
  rw [List.filter_eq_nil_iff]
  intro entry member
  obtain ⟨packet, _, rfl⟩ := List.mem_map.mp (List.mem_reverse.mp member)
  exact Bool.false_ne_true

theorem finalize_nothing {mem : Memory} (nothing : mem.rx.finalizeList = []) :
    (finalize.run mem).2 = mem := by
  rw [finalize, run_viewRx_bind, nothing]
  change (⟨{ mem.rx with finalizeList := [] }, mem.tx⟩ : Memory) = mem
  rw [← nothing]

section

variable {k : TcpStack} {mem : Memory} (owing : Owing mem)
  (room : mem.rx.control.length + mem.rx.ackList.length ≤ maxControl) (env : FlushEnv)
  (takes : maxControl ≤ env.controlTake)
include k mem owing room env takes

/-- What the flushes leave in the log when the queue takes everything. -/
theorem flushControl_log :
    (flushControl env.controlTake ((flushAcks k env.ackPool).run mem).2.rx).log =
      ((flushed k mem env).map .controlSent).reverse ++ mem.rx.log := by
  obtain ⟨_, control, others⟩ := @flushAcks_flushed k env.ackPool mem owing room
  rw [← pureAcks_map_snd, ← flushed] at control
  generalize ((flushAcks k env.ackPool).run mem).2 = acked at control others
  have fits : (flushed k mem env).length ≤ env.controlTake := by
    refine Nat.le_trans ?_ takes
    refine Nat.le_trans ?_ room
    rw [flushed, List.length_append, List.length_map, List.length_map, pureAcks]
    refine Nat.add_le_add_left (Nat.le_trans (List.length_filterMap_le _ _) ?_) _
    rw [List.length_zipIdx]
  simp only [flushControl]
  rw [control, Nat.min_eq_right fits, List.take_length, others]

/-- A flush with enough room hands over the queue and then the ACKs that are due. -/
theorem endPoll_emits :
    emitted ((endPoll k env).run mem).2.rx.log =
      (flushed k mem env).reverse ++ emitted mem.rx.log := by
  rw [endPoll, Program.run_bind', run_inbound_bind, (finalize_settles _).emitted,
    flushControl_log owing room env takes, emitted_append, emitted_sent]

/-- The end of a poll when no connection has ended and the queue takes everything. -/
theorem endPoll_flushes (unended : mem.rx.finalizeList = []) :
    let mem' := ((endPoll k env).run mem).2
    mem'.outline = mem.outline ∧ mem'.rx.events = mem.rx.events ∧
      emitted mem'.rx.log = (flushed k mem env).reverse ++ emitted mem.rx.log := by
  intro mem'
  obtain ⟨slots, _, others⟩ := @flushAcks_flushed k env.ackPool mem owing room
  have same : mem' =
      ⟨flushControl env.controlTake ((flushAcks k env.ackPool).run mem).2.rx, mem.tx⟩ := by
    simp only [mem']
    rw [endPoll, Program.run_bind', run_inbound_bind, finalize_nothing, others]
    rw [others]
    exact unended
  have log := flushControl_log (k := k) owing room env takes
  have emits : emitted mem'.rx.log =
      (flushed k mem env).reverse ++ emitted mem.rx.log := endPoll_emits owing room env takes
  generalize ((flushAcks k env.ackPool).run mem).2 = acked at slots others same log
  refine ⟨?_, ?_, emits⟩
  · rw [Memory.outline, Memory.outline, same]
    congr 1
    apply Receiver.SameOutline.outline
    constructor
    case slots =>
      intro i
      simp only [flushControl, slots]
      rfl
    case log => rw [log, List.filter_append, filter_sent, List.nil_append]
    all_goals
      simp only [flushControl]
      rw [others]
  · rw [same]
    simp only [flushControl]
    rw [others]

end

/-! ## The last ACK -/

/-- The packet is a pure ACK to this address. -/
def ackTo? (addr : SegmentAddr) : Packet → Option TxSegment
  | .tcp segment => if segment.flags = ackFlag ∧ segment.addr = addr then some segment else none
  | .arp _ => none

/-- The last pure ACK to an address; the packets are newest first. -/
def lastAck (addr : SegmentAddr) (packets : List Packet) : Option TxSegment :=
  packets.findSome? (ackTo? addr)

theorem ackTo?_eq_some {addr : SegmentAddr} {packet : Packet} {segment : TxSegment} :
    ackTo? addr packet = some segment ↔
      packet = .tcp segment ∧ segment.flags = ackFlag ∧ segment.addr = addr := by
  cases packet with
  | arp frame => simp [ackTo?]
  | tcp found =>
      simp only [ackTo?, Option.ite_none_right_eq_some, Option.some.injEq, Packet.tcp.injEq]
      constructor
      · rintro ⟨acks, rfl⟩
        exact ⟨rfl, acks⟩
      · rintro ⟨rfl, acks⟩
        exact ⟨acks, rfl⟩

section

variable {addr : SegmentAddr} {packets : List Packet}

/-- Without a pure ACK to the address there is no last one. -/
theorem lastAck_eq_none
    (others : ∀ segment, .tcp segment ∈ packets → segment.flags = ackFlag → segment.addr ≠ addr) :
    lastAck addr packets = none := by
  rw [lastAck, List.findSome?_eq_none_iff]
  intro packet member
  rw [Option.eq_none_iff_forall_ne_some]
  intro segment acks
  obtain ⟨rfl, pure, addressed⟩ := ackTo?_eq_some.mp acks
  exact others segment member pure addressed

theorem mem_of_lastAck {segment : TxSegment} (last : lastAck addr packets = some segment) :
    .tcp segment ∈ packets ∧ segment.flags = ackFlag ∧ segment.addr = addr := by
  obtain ⟨packet, member, acks⟩ := List.exists_of_findSome?_eq_some last
  obtain ⟨rfl, pure, addressed⟩ := ackTo?_eq_some.mp acks
  exact ⟨member, pure, addressed⟩

/-- The only ACK to an address is the last. -/
theorem lastAck_eq_some {segment : TxSegment} (member : .tcp segment ∈ packets)
    (pure : segment.flags = ackFlag) (addressed : segment.addr = addr)
    (only : ∀ other, .tcp other ∈ packets → other.flags = ackFlag → other.addr = addr →
      other = segment) : lastAck addr packets = some segment := by
  cases last : lastAck addr packets with
  | none =>
      rw [lastAck, List.findSome?_eq_none_iff] at last
      have acks := ackTo?_eq_some.mpr ⟨rfl, pure, addressed⟩
      rw [last _ member] at acks
      cases acks
  | some other =>
      obtain ⟨found, otherPure, otherAddressed⟩ := mem_of_lastAck last
      rw [only other found otherPure otherAddressed]

theorem lastAck_append (later earlier : List Packet) :
    lastAck addr (later ++ earlier) = (lastAck addr later).or (lastAck addr earlier) :=
  List.findSome?_append

end

/-! ## One long burst -/

/-- Where the polls of a cut are, compared with `reference`, which has processed the same
packets since `base` without any flush.  `returned` are the events of the polls that are
over. -/
structure Tracks (base : Memory) (returned : List TcpEvent) (reference mem : Memory) :
    Prop where
  outline : mem.outline = reference.outline
  told : events mem.rx.log = events base.rx.log ++ returned ++ mem.rx.events
  unended : mem.rx.finalizeList = []
  held : Held mem

/-- The ACKs of a cut that have been sent; `reference` keeps all that were ever due. -/
structure Acked (k : TcpStack) (added : List Packet) (reference mem : Memory) : Prop where
  lasting : ∀ i, (reference.rx.slots i).ackPending = true → OpenConn k mem i
  pending : ∀ i, (mem.rx.slots i).ackPending = true → (reference.rx.slots i).ackPending = true
  sent : ∀ i, (reference.rx.slots i).ackPending = true → (mem.rx.slots i).ackPending = false →
    lastAck (replyAddr k (mem.rx.slots i)) added = ackOf k mem i
  only : ∀ segment, .tcp segment ∈ added → segment.flags = ackFlag →
    (∃ i, (reference.rx.slots i).ackPending = true ∧
      segment.addr = replyAddr k (mem.rx.slots i)) ∧ 54 ≤ k.mbufRoom

section

variable {k : TcpStack} {base reference mem : Memory} {returned : List TcpEvent}
  {added : List Packet} {packet : RxPacket}

/-- No connection reaches a terminal state with a packet. -/
def Unending (k : TcpStack) (packet : RxPacket) (mem : Memory) : Prop :=
  ∀ i < k.maxConnections, (((process k packet).run mem).2.rx.slots i).state = .closed →
    (mem.rx.slots i).state = .closed

theorem Unending.all (unending : Unending k packet mem) (accounts : Accounting k mem.rx)
    (i : Nat) (closed : (((process k packet).run mem).2.rx.slots i).state = .closed) :
    (mem.rx.slots i).state = .closed := by
  cases (process_dispatch accounts packet).touches accounts i with
  | apart session =>
      rw [← session_state, ← session]
      exact closed
  | opened _ inside | segment _ inside => exact unending i inside closed

/-- The run lemma of `Outline` for one packet. -/
theorem outline_process (same : mem.outline = reference.outline) (packet : RxPacket) :
    ((process k packet).run mem).2.outline = ((process k packet).run reference).2.outline :=
  (process_respects k packet mem reference ⟨same, rfl, rfl⟩).2.outline

theorem emitted_process (packet : RxPacket) (mem : Memory) :
    emitted ((process k packet).run mem).2.rx.log = emitted mem.rx.log :=
  (process_respects k packet mem mem ⟨rfl, rfl, rfl⟩).2.first

theorem Unending.of_outline (same : mem.outline = reference.outline)
    (unending : Unending k packet reference) : Unending k packet mem := by
  intro i inside closed
  rw [state_of_outline (outline_process same packet)] at closed
  rw [state_of_outline same]
  exact unending i inside closed

/-- One packet more, in a poll of the cut and in the long burst. -/
theorem Tracks.step (tracks : Tracks base returned reference mem)
    (accounts : Accounting k mem.rx)
    (accounts' : Accounting k ((process k packet).run mem).2.rx)
    (unending : Unending k packet reference) :
    Tracks base returned ((process k packet).run reference).2
      ((process k packet).run mem).2 := by
  have dispatch := process_dispatch accounts packet
  refine ⟨outline_process tracks.outline packet, ?_, ?_, dispatch.held accounts tracks.held⟩
  · obtain ⟨_, ⟨entries, log, grown, _⟩, _⟩ := dispatch.pushes
    rw [log, grown, events_append, tracks.told, List.append_assoc]
  · exact dispatch.unended accounts accounts' ((unending.of_outline tracks.outline).all accounts)
      tracks.unended

/-- The ACKs that were sent stay the last ones, or become due again. -/
theorem Acked.step (acked : Acked k added reference mem)
    (same : mem.outline = reference.outline) (accounts : Accounting k mem.rx)
    (unending : Unending k packet reference) :
    Acked k added ((process k packet).run reference).2 ((process k packet).run mem).2 := by
  have touches := (process_dispatch accounts packet).touches accounts
  have refAccounts := accounts_of_outline same accounts
  have refTouches := (process_dispatch refAccounts packet).touches refAccounts
  have unended := (unending.of_outline same).all accounts
  have refUnended := unending.all refAccounts
  have lasting : ∀ i, (mem.rx.slots i).ackPending = true → OpenConn k mem i :=
    fun i set => acked.lasting i (acked.pending i set)
  have refLasting : ∀ i, (reference.rx.slots i).ackPending = true → OpenConn k reference i :=
    fun i set => (acked.lasting i set).of_outline same
  have due : ∀ i, (((process k packet).run mem).2.rx.slots i).ackPending = true ↔
      (mem.rx.slots i).ackPending = true ∨
        i < k.maxConnections ∧ DueNow k packet (mem.session i) :=
    fun i => (touches i).pending_iff accounts (lasting i) (unended i)
  have refDue : ∀ i, (((process k packet).run reference).2.rx.slots i).ackPending = true ↔
      (reference.rx.slots i).ackPending = true ∨
        i < k.maxConnections ∧ DueNow k packet (mem.session i) := by
    intro i
    rw [session_of_outline same]
    exact (refTouches i).pending_iff refAccounts (refLasting i) (refUnended i)
  have keeps : ∀ i, (reference.rx.slots i).ackPending = true →
      (((process k packet).run mem).2.rx.slots i).state ≠ .closed :=
    fun i set closed => (acked.lasting i set).unclosed (unended i closed)
  constructor
  case lasting =>
    intro i set
    exact ((refTouches i).lasting (refLasting i) (refUnended i) set).of_outline
      (outline_process same packet).symm
  case pending =>
    intro i set
    exact (refDue i).mpr (((due i).mp set).imp_left (acked.pending i))
  case sent =>
    intro i set idle
    have quiet : ¬((mem.rx.slots i).ackPending = true ∨
        i < k.maxConnections ∧ DueNow k packet (mem.session i)) := by
      rw [← due, idle]
      exact Bool.false_ne_true
    rw [not_or] at quiet
    rcases (refDue i).mp set with before | new
    · have stays := acked.lasting i before
      obtain ⟨_, persists, _⟩ := (touches i).keeps stays (keeps i before)
      rw [persists.replyAddr, (touches i).ackOf stays (keeps i before)
        fun now => quiet.2 ⟨stays.inside, now⟩]
      exact acked.sent i before (Bool.eq_false_iff.mpr quiet.1)
    · exact absurd new quiet.2
  case only =>
    intro segment member pure
    obtain ⟨⟨i, before, addressed⟩, fits⟩ := acked.only segment member pure
    obtain ⟨_, persists, _⟩ := (touches i).keeps (acked.lasting i before) (keeps i before)
    refine ⟨⟨i, (refDue i).mpr (Or.inl before), ?_⟩, fits⟩
    rw [persists.replyAddr]
    exact addressed

/-! ### Flushing -/

theorem ackOf_isSome (mem : Memory) (i : Nat) :
    (ackOf k mem i).isSome = true ↔ 54 ≤ k.mbufRoom := by
  simp only [ackOf, buildSegment, mbufAppend, appendMssOption, appendPayload]
  by_cases fits : 54 ≤ k.mbufRoom
  · simp [fits, Nat.le_trans (by decide : 14 ≤ 54) fits, Nat.le_trans (by decide : 34 ≤ 54) fits]
  · simp only [fits, iff_false]
    by_cases second : 34 ≤ k.mbufRoom
    · simpa [second] using fun _ => Nat.lt_of_not_le fits
    · simp [second]

theorem ackOf_of_outline (same : mem.outline = reference.outline) (i : Nat) :
    replyAddr k (mem.rx.slots i) = replyAddr k (reference.rx.slots i) ∧
      ackOf k mem i = ackOf k reference i := by
  have session := session_of_outline same i
  have persists : SameConn (reference.session i) (mem.session i) := by
    rw [session]
    exact .refl _
  have out : mem.tx.slots i = reference.tx.slots i := congrArg Session.out session
  have rcvNxt : (mem.rx.slots i).rcvNxtLocal = (reference.rx.slots i).rcvNxtLocal := by
    rw [← session_rcvNxtLocal, session, session_rcvNxtLocal]
  refine ⟨persists.replyAddr k, ?_⟩
  rw [ackOf, ackOf, persists.replyAddr, out, rcvNxt]

/-- Two connections that last have different addresses. -/
theorem OpenConn.eq_of_replyAddr {i j : Nat} (accounts : Accounting k mem.rx)
    (iLasting : OpenConn k mem i) (jLasting : OpenConn k mem j)
    (same : replyAddr k (mem.rx.slots i) = replyAddr k (mem.rx.slots j)) : i = j := by
  obtain ⟨iFree, iAwaiting⟩ := (accounts.inFlow_iff iLasting.inside).mp (iLasting.inFlow accounts)
  obtain ⟨jFree, jAwaiting⟩ := (accounts.inFlow_iff jLasting.inside).mp (jLasting.inFlow accounts)
  exact accounts.partitioned.tuples i iLasting.inside j jLasting.inside iFree iAwaiting jFree
    jAwaiting (congrArg SegmentAddr.dstIp same) (congrArg SegmentAddr.dstPort same)
    (congrArg SegmentAddr.srcPort same)

theorem pureAck_eq_ackOf {ackPool : Nat → Bool} (pool : ∀ n, ackPool n = true) {i position : Nat}
    (pending : (mem.rx.slots i).ackPending = true) :
    pureAck k ackPool mem (i, position) = ackOf k mem i := by
  rw [pureAck, if_pos pending, pool]
  rfl

/-- The pure ACKs that are flushed are those that are due. -/
theorem tcp_mem_flushed {env : FlushEnv} {segment : TxSegment} (owing : Owing mem)
    (impure : ∀ packet ∈ mem.rx.control, ¬IsPureAck packet)
    (pool : ∀ n, env.ackPool n = true) :
    (.tcp segment ∈ flushed k mem env ∧ segment.flags = ackFlag) ↔
      ∃ i, (mem.rx.slots i).ackPending = true ∧ ackOf k mem i = some segment := by
  rw [flushed, List.mem_append]
  constructor
  · rintro ⟨queued | acks, pure⟩
    · exact absurd ⟨segment, rfl, pure⟩ (impure _ queued)
    · obtain ⟨_, member, same⟩ := List.mem_map.mp acks
      obtain rfl := Packet.tcp.inj same
      obtain ⟨⟨i, ack⟩, listed, rfl⟩ := List.mem_map.mp member
      obtain ⟨position, _, built⟩ := mem_pureAcks.mp listed
      have pending : (mem.rx.slots i).ackPending = true := by
        by_contra idle
        rw [pureAck, if_neg idle] at built
        cases built
      exact ⟨i, pending, (pureAck_eq_ackOf pool pending).symm.trans built⟩
  · rintro ⟨i, pending, built⟩
    obtain ⟨position, listed⟩ := List.mem_iff_getElem?.mp (owing.listed i pending)
    have acks : (i, segment) ∈ pureAcks k env.ackPool mem :=
      mem_pureAcks.mpr ⟨position, listed, (pureAck_eq_ackOf pool pending).trans built⟩
    refine ⟨Or.inr (List.mem_map_of_mem (List.mem_map_of_mem acks)), ?_⟩
    rw [buildSegment_eq_some built]

/-- Nothing fails at the end of a poll. -/
structure FlushEnv.Unfailing (env : FlushEnv) : Prop where
  pool : ∀ n, env.ackPool n = true
  queue : maxControl ≤ env.controlTake

theorem Held.of_outline (held : Held mem) (same : mem.outline = reference.outline) :
    Held reference := by
  have outlined : Held mem.outline := held
  rw [same] at outlined
  exact outlined

theorem events_of_outline (same : mem.outline = reference.outline) :
    events mem.rx.log = events reference.rx.log := by
  rw [← events_filter, ← events_filter reference.rx.log]
  exact congrArg (fun mem : Memory => events mem.rx.log) same

/-- The end of a poll changes nothing that the long burst can see. -/
theorem Tracks.flush (tracks : Tracks base returned reference mem) {count : Nat}
    (reachable : Reachable k ⟨.polling count, mem⟩) {env : FlushEnv}
    (unfailing : env.Unfailing) :
    Tracks base returned reference ((endPoll k env).run mem).2 := by
  obtain ⟨outline, sameEvents, _⟩ := endPoll_flushes (k := k) reachable.coalesced.owing
    reachable.loaded.room env unfailing.queue tracks.unended
  refine ⟨outline.trans tracks.outline, ?_, finalizeList_endPoll k env mem,
    tracks.held.of_outline outline.symm⟩
  rw [events_of_outline outline, sameEvents]
  exact tracks.told

/-- After a flush, the last ACK to every connection that was ever owed one is up to date. -/
theorem Acked.last (acked : Acked k added reference mem) (accounts : Accounting k mem.rx)
    {flush : List Packet}
    (due : ∀ segment, (.tcp segment ∈ flush ∧ segment.flags = ackFlag) ↔
      ∃ i, (mem.rx.slots i).ackPending = true ∧ ackOf k mem i = some segment)
    {i : Nat} (set : (reference.rx.slots i).ackPending = true) :
    lastAck (replyAddr k (mem.rx.slots i)) (flush ++ added) = ackOf k mem i := by
  have mine : ∀ segment, .tcp segment ∈ flush → segment.flags = ackFlag →
      segment.addr = replyAddr k (mem.rx.slots i) →
      (mem.rx.slots i).ackPending = true ∧ ackOf k mem i = some segment := by
    intro segment member pure addressed
    obtain ⟨j, pending, built⟩ := (due segment).mp ⟨member, pure⟩
    have addr : segment.addr = replyAddr k (mem.rx.slots j) := by
      rw [buildSegment_eq_some built]
    obtain rfl : j = i := (acked.lasting j (acked.pending j pending)).eq_of_replyAddr accounts
      (acked.lasting i set) (addr.symm.trans addressed)
    exact ⟨pending, built⟩
  rw [lastAck_append]
  cases built : ackOf k mem i with
  | none =>
      have unflushed : lastAck (replyAddr k (mem.rx.slots i)) flush = none :=
        lastAck_eq_none fun segment member pure addressed => by
          have acks := (mine segment member pure addressed).2
          rw [built] at acks
          cases acks
      have never : lastAck (replyAddr k (mem.rx.slots i)) added = none :=
        lastAck_eq_none fun segment member pure _ => by
          have fits := (ackOf_isSome mem i).mpr (acked.only segment member pure).2
          rw [built] at fits
          cases fits
      rw [unflushed, never]
      rfl
  | some ack =>
      by_cases pending : (mem.rx.slots i).ackPending = true
      · obtain ⟨member, pure⟩ := (due ack).mpr ⟨i, pending, built⟩
        have addressed : ack.addr = replyAddr k (mem.rx.slots i) := by
          rw [buildSegment_eq_some built]
        rw [lastAck_eq_some member pure addressed fun other found otherPure otherAddressed => ?_]
        · rfl
        · have acks := (mine other found otherPure otherAddressed).2
          exact Option.some.inj (acks.symm.trans built)
      · have unflushed : lastAck (replyAddr k (mem.rx.slots i)) flush = none :=
          lastAck_eq_none fun segment member pure addressed =>
            pending (mine segment member pure addressed).1
        rw [unflushed, acked.sent i set (Bool.eq_false_iff.mpr pending), built]
        rfl

/-- After the end of a poll, what was due has been acknowledged. -/
theorem Acked.flush (acked : Acked k added reference mem) {count : Nat}
    (reachable : Reachable k ⟨.polling count, mem⟩) {env : FlushEnv} (unfailing : env.Unfailing)
    (unended : mem.rx.finalizeList = []) :
    Acked k ((flushed k mem env).reverse ++ added) reference ((endPoll k env).run mem).2 := by
  obtain ⟨owing, impure, _⟩ := reachable.coalesced
  have accounts : Accounting k mem.rx := reachable.inOrder.accounts
  have room := reachable.loaded.room
  obtain ⟨outline, _, _⟩ := endPoll_flushes (k := k) owing room env unfailing.queue unended
  have acknowledged := endPoll_acknowledges (k := k) owing room env
  have due {segment : TxSegment} : (.tcp segment ∈ (flushed k mem env).reverse ∧
      segment.flags = ackFlag) ↔
      ∃ i, (mem.rx.slots i).ackPending = true ∧ ackOf k mem i = some segment := by
    rw [List.mem_reverse]
    exact tcp_mem_flushed owing impure unfailing.pool
  generalize ((endPoll k env).run mem).2 = mem' at outline acknowledged
  constructor
  case lasting => exact fun i set => (acked.lasting i set).of_outline outline.symm
  case pending =>
    intro i set
    rw [acknowledged] at set
    cases set
  case sent =>
    intro i set _
    obtain ⟨addr, ack⟩ := ackOf_of_outline (k := k) outline i
    rw [addr, ack]
    exact acked.last accounts (fun _ => due) set
  case only =>
    intro segment member pure
    rcases List.mem_append.mp member with new | old
    · obtain ⟨i, pending, built⟩ := due.mp ⟨new, pure⟩
      refine ⟨⟨i, acked.pending i pending, ?_⟩, (ackOf_isSome mem i).mp (by rw [built]; rfl)⟩
      rw [(ackOf_of_outline outline i).1, buildSegment_eq_some built]
    · obtain ⟨⟨i, before, addressed⟩, fits⟩ := acked.only segment old pure
      refine ⟨⟨i, before, ?_⟩, fits⟩
      rw [(ackOf_of_outline outline i).1]
      exact addressed

end

/-! ## Polls one after the other -/

/-- One poll for each burst, and the events of all of them. -/
def pollAll (k : TcpStack) : List (Burst × FlushEnv) → Code (List TcpEvent)
  | [] => pure []
  | (burst, env) :: rest => do
      let told ← poll k burst env
      let later ← pollAll k rest
      pure (told ++ later)

/-- The packets of all bursts. -/
def frames (cut : List (Burst × FlushEnv)) : List RxPacket :=
  cut.flatMap fun burst => burst.1.packets

/-- No connection reaches a terminal state when these packets are processed one after
the other. -/
def NoneEnds (k : TcpStack) : List RxPacket → Memory → Prop
  | [], _ => True
  | packet :: rest, mem =>
      Unending k packet mem ∧ NoneEnds k rest ((process k packet).run mem).2

/-- The memory after these packets, without any flush. -/
def processed (k : TcpStack) (packets : List RxPacket) (mem : Memory) : Memory :=
  ((Program.forEach (process k) packets).run mem).2

theorem processed_cons (k : TcpStack) (packet : RxPacket) (rest : List RxPacket)
    (mem : Memory) :
    processed k (packet :: rest) mem = processed k rest ((process k packet).run mem).2 := by
  rw [processed, Program.run_forEach_cons]
  rfl

theorem processed_append (k : TcpStack) (first second : List RxPacket) (mem : Memory) :
    processed k (first ++ second) mem = processed k second (processed k first mem) := by
  induction first generalizing mem with
  | nil => rfl
  | cons packet rest ih => rw [List.cons_append, processed_cons, ih, processed_cons]

/-- If no connection ends in both parts together, none ends in either. -/
theorem NoneEnds.append {k : TcpStack} {first second : List RxPacket} {mem : Memory}
    (noneEnds : NoneEnds k (first ++ second) mem) :
    NoneEnds k first mem ∧ NoneEnds k second (processed k first mem) := by
  induction first generalizing mem with
  | nil => exact ⟨trivial, noneEnds⟩
  | cons packet rest ih =>
      obtain ⟨now, later⟩ := noneEnds
      rw [processed_cons]
      exact ⟨⟨now, (ih later).1⟩, (ih later).2⟩

/-- The polls of a cut keep abreast of one long burst. -/
structure CutInvariant (k : TcpStack) (base : Memory) (returned : List TcpEvent)
    (reference mem : Memory) : Prop where
  tracks : Tracks base returned reference mem
  acked : ∃ added, emitted mem.rx.log = added ++ emitted base.rx.log ∧
    Acked k added reference mem

namespace CutInvariant

variable {k : TcpStack} {base reference mem : Memory} {returned : List TcpEvent}

/-- At the start of the first poll. -/
theorem start (reachable : Reachable k ⟨.idle, mem⟩) :
    let base := (beginPoll.run mem).2
    CutInvariant k base [] base base := by
  intro base
  have load : Load 0 base.rx := beginPoll_load reachable.inOrder reachable.loaded
  have told : base.rx.events = [] := List.eq_nil_of_length_eq_zero (Nat.le_zero.mp load.events)
  have nothing : ∀ i, (base.rx.slots i).ackPending ≠ true := by
    intro i
    rw [(beginPoll_settles mem).idle i (reachable.coalesced.idle rfl i)]
    exact Bool.false_ne_true
  refine ⟨⟨rfl, ?_, ?_, (beginPoll_reaps mem).held⟩, [], rfl, ?_⟩
  · rw [told, List.append_nil, List.append_nil]
  · exact List.eq_nil_of_length_eq_zero (Nat.le_zero.mp load.finalizeList)
  · exact ⟨fun i set => absurd set (nothing i), fun i set => absurd set (nothing i),
      fun i set => absurd set (nothing i), fun _ member => absurd member List.not_mem_nil⟩

/-- Some packets more, by induction over the list. -/
theorem packets {count : Nat} (packets : List RxPacket)
    (abreast : CutInvariant k base returned reference mem)
    (reachable : Reachable k ⟨.polling count, mem⟩) (fits : count + packets.length ≤ maxBurst)
    (noneEnds : NoneEnds k packets reference) :
    CutInvariant k base returned (processed k packets reference) (processed k packets mem) := by
  induction packets generalizing count reference mem with
  | nil => exact abreast
  | cons packet rest ih =>
      rw [List.length_cons] at fits
      have enabled : (Phase.polling count).next (.packet packet) =
          some (.polling (count + 1)) := by
        simp only [Phase.next]
        rw [if_pos (by omega)]
      have next : Reachable k ⟨.polling (count + 1), ((process k packet).run mem).2⟩ :=
        reachable.step (.task (.packet packet) enabled) trivial
      have accounts : Accounting k mem.rx := reachable.inOrder.accounts
      obtain ⟨added, sent, acked⟩ := abreast.acked
      rw [processed_cons, processed_cons]
      refine ih ⟨abreast.tracks.step accounts next.inOrder.accounts noneEnds.1, added, ?_,
        acked.step abreast.tracks.outline accounts noneEnds.1⟩ next (by omega) noneEnds.2
      rw [emitted_process, sent]

/-- The end of one of the polls. -/
theorem flush {count : Nat} (abreast : CutInvariant k base returned reference mem)
    (reachable : Reachable k ⟨.polling count, mem⟩) {env : FlushEnv}
    (unfailing : env.Unfailing) :
    CutInvariant k base returned reference ((endPoll k env).run mem).2 := by
  have unended := abreast.tracks.unended
  obtain ⟨_, _, flushed⟩ := endPoll_flushes (k := k) reachable.coalesced.owing
    reachable.loaded.room env unfailing.queue unended
  obtain ⟨added, sent, acked⟩ := abreast.acked
  refine ⟨abreast.tracks.flush reachable unfailing, _, ?_, acked.flush reachable unfailing unended⟩
  rw [flushed, sent, List.append_assoc]

/-- The next poll begins, and what the last one has returned is over. -/
theorem again (abreast : CutInvariant k base returned reference mem) :
    CutInvariant k base (returned ++ mem.rx.events) reference (beginPoll.run mem).2 := by
  obtain ⟨⟨outline, told, unended, held⟩, added, sent, acked⟩ := abreast
  rw [beginPoll_held held]
  refine ⟨⟨outline, ?_, unended, held⟩, added, sent,
    ⟨fun i set => ?_, acked.pending, acked.sent, acked.only⟩⟩
  · dsimp only
    rw [told, List.append_nil, List.append_assoc]
  · obtain ⟨inside, accepted, unclosed⟩ := acked.lasting i set
    exact ⟨inside, accepted, unclosed⟩

/-- A whole poll. -/
theorem poll {burst : Burst} {env : FlushEnv} (reachable : Reachable k ⟨.idle, mem⟩)
    (abreast : CutInvariant k base returned reference (beginPoll.run mem).2)
    (noneEnds : NoneEnds k burst.packets reference) (unfailing : env.Unfailing) :
    let result := (Tcp.poll k burst env).run mem
    Reachable k ⟨.idle, result.2⟩ ∧ result.1 = result.2.rx.events ∧
      CutInvariant k base returned (processed k burst.packets reference) result.2 ∧
      ∀ i, (result.2.rx.slots i).ackPending = false := by
  intro result
  have began : Reachable k ⟨.polling 0, (beginPoll.run mem).2⟩ :=
    reachable.step (.task .beginPoll rfl) trivial
  have fits : 0 + burst.packets.length ≤ maxBurst := by
    rw [Nat.zero_add]
    exact burst.size_le
  have through : Reachable k ⟨.polling (0 + burst.packets.length),
      processed k burst.packets (beginPoll.run mem).2⟩ :=
    run_packets k burst.packets 0 _ fits began
  have same : result = (((endPoll k env).run
      (processed k burst.packets (beginPoll.run mem).2)).2.rx.events,
      ((endPoll k env).run (processed k burst.packets (beginPoll.run mem).2)).2) := by
    simp only [result, Tcp.poll, Program.run_bind', viewRx, Program.run_read]
    rfl
  have ended : Reachable k ⟨.idle, result.2⟩ := run_poll k burst env reachable
  refine ⟨ended, ?_, ?_, ended.coalesced.idle rfl⟩
  · rw [same]
  · rw [same]
    exact (abreast.packets burst.packets began fits noneEnds).flush through unfailing

/-- All polls of a cut. -/
theorem polls {reference mem : Memory} {returned : List TcpEvent}
    (first : Burst × FlushEnv) (rest : List (Burst × FlushEnv))
    (reachable : Reachable k ⟨.idle, mem⟩)
    (abreast : CutInvariant k base returned reference (beginPoll.run mem).2)
    (noneEnds : NoneEnds k (frames (first :: rest)) reference)
    (unfailing : ∀ burst ∈ first :: rest, burst.2.Unfailing) :
    let result := (pollAll k (first :: rest)).run mem
    ∃ earlier, CutInvariant k base earlier
      (processed k (frames (first :: rest)) reference) result.2 ∧
      earlier ++ result.2.rx.events = returned ++ result.1 ∧
      ∀ i, (result.2.rx.slots i).ackPending = false := by
  obtain ⟨burst, env⟩ := first
  have here : env.Unfailing := unfailing _ List.mem_cons_self
  have split : frames ((burst, env) :: rest) = burst.packets ++ frames rest := List.flatMap_cons
  rw [split] at noneEnds ⊢
  obtain ⟨now, later⟩ := noneEnds.append
  obtain ⟨ended, told, after, idle⟩ := abreast.poll reachable now here
  intro result
  have same : result = (((Tcp.poll k burst env).run mem).1 ++
      ((pollAll k rest).run ((Tcp.poll k burst env).run mem).2).1,
      ((pollAll k rest).run ((Tcp.poll k burst env).run mem).2).2) := by
    simp only [result, pollAll, Program.run_bind']
    rfl
  rw [processed_append]
  cases rest with
  | nil =>
      refine ⟨returned, ?_, ?_, ?_⟩
      · rw [same]
        exact after
      · rw [same, told]
        exact congrArg (returned ++ ·) (List.append_nil _).symm
      · rw [same]
        exact idle
  | cons second rest =>
      obtain ⟨earlier, done, sum, quiet⟩ := polls second rest ended after.again later
        fun burst member => unfailing burst (List.mem_cons_of_mem _ member)
      rw [same]
      refine ⟨earlier, done, ?_, quiet⟩
      rw [sum, told, List.append_assoc]

end CutInvariant

/-- The last ACK to every address depends on the reference only. -/
theorem Acked.lastAck_eq {k : TcpStack} {reference mem mem' : Memory}
    {added added' : List Packet} (acked : Acked k added reference mem)
    (acked' : Acked k added' reference mem') (same : mem.outline = mem'.outline)
    (idle : ∀ i, (mem.rx.slots i).ackPending = false)
    (idle' : ∀ i, (mem'.rx.slots i).ackPending = false) (addr : SegmentAddr) :
    lastAck addr added = lastAck addr added' := by
  by_cases owed : ∃ i, (reference.rx.slots i).ackPending = true ∧
      replyAddr k (mem.rx.slots i) = addr
  · obtain ⟨i, set, rfl⟩ := owed
    obtain ⟨sameAddr, sameAck⟩ := ackOf_of_outline (k := k) same i
    rw [acked.sent i set (idle i), sameAddr, acked'.sent i set (idle' i), sameAck]
  · rw [lastAck_eq_none, lastAck_eq_none]
    · intro segment member pure addressed
      obtain ⟨⟨i, set, here⟩, _⟩ := acked'.only segment member pure
      refine owed ⟨i, set, ?_⟩
      rw [(ackOf_of_outline same i).1, ← here, addressed]
    · intro segment member pure addressed
      obtain ⟨⟨i, set, here⟩, _⟩ := acked.only segment member pure
      exact owed ⟨i, set, here.symm.trans addressed⟩

/-- Batching does not matter.  Take any reachable state between polls, and packets with
which no connection reaches a terminal state.  However they are cut into bursts that are
polled one after the other without failures of the pool or the control queue, the same
events are returned, the flow table, the free list and every slot are the same in the end,
and the last pure ACK sent to any peer is the same. -/
theorem batching_is_invisible {k : TcpStack} {mem : Memory}
    (reachable : Reachable k ⟨.idle, mem⟩) (cut cut' : List (Burst × FlushEnv))
    (polled : cut ≠ []) (polled' : cut' ≠ []) (same : frames cut = frames cut')
    (noneEnds : NoneEnds k (frames cut) (beginPoll.run mem).2)
    (unfailing : ∀ burst ∈ cut, burst.2.Unfailing)
    (unfailing' : ∀ burst ∈ cut', burst.2.Unfailing) :
    let result := (pollAll k cut).run mem
    let result' := (pollAll k cut').run mem
    result.1 = result'.1 ∧ result.2.rx.flows = result'.2.rx.flows ∧
      result.2.rx.freeSlots = result'.2.rx.freeSlots ∧
      result.2.rx.slots = result'.2.rx.slots ∧ result.2.tx.slots = result'.2.tx.slots ∧
      ∃ added added', emitted result.2.rx.log = added ++ emitted mem.rx.log ∧
        emitted result'.2.rx.log = added' ++ emitted mem.rx.log ∧
        ∀ addr, lastAck addr added = lastAck addr added' := by
  intro result result'
  obtain ⟨first, rest, rfl⟩ := List.exists_cons_of_ne_nil polled
  obtain ⟨first', rest', rfl⟩ := List.exists_cons_of_ne_nil polled'
  have start := CutInvariant.start reachable
  obtain ⟨earlier, ⟨tracks, added, sent, acked⟩, returned, idle⟩ :=
    start.polls first rest reachable noneEnds unfailing
  rw [same] at noneEnds tracks acked
  obtain ⟨earlier', ⟨tracks', added', sent', acked'⟩, returned', idle'⟩ :=
    start.polls first' rest' reachable noneEnds unfailing'
  have outline : result.2.outline = result'.2.outline := tracks.outline.trans tracks'.outline.symm
  rw [beginPoll_emitted] at sent sent'
  have told : result.1 = result'.1 := by
    have logs := events_of_outline outline
    rw [tracks.told, tracks'.told, List.append_assoc, List.append_assoc, returned, returned']
      at logs
    exact List.append_cancel_left logs
  have slots : result.2.rx.slots = result'.2.rx.slots := by
    funext i
    have muted : (result.2.rx.slots i).mute = (result'.2.rx.slots i).mute :=
      congrArg (fun mem : Memory => mem.rx.slots i) outline
    have now : (result.2.rx.slots i).mute = result.2.rx.slots i := by
      rw [TcpConnection.mute, ← idle i]
    have now' : (result'.2.rx.slots i).mute = result'.2.rx.slots i := by
      rw [TcpConnection.mute, ← idle' i]
    rw [← now, muted, now']
  have flows : result.2.outline.rx.flows = result'.2.outline.rx.flows := by rw [outline]
  have freeSlots : result.2.outline.rx.freeSlots = result'.2.outline.rx.freeSlots := by rw [outline]
  have outbound : result.2.outline.tx.slots = result'.2.outline.tx.slots := by rw [outline]
  exact ⟨told, flows, freeSlots, slots, outbound, added, added', sent, sent',
    acked.lastAck_eq acked' outline idle idle'⟩

/-- A handshake with two bytes, in one poll and in two. -/
theorem batching_is_invisible_of_handshake :
    let env : FlushEnv := ⟨fun _ => true, maxControl⟩
    let syn := peerPacket 7 0 synFlag 1000 []
    let data := peerPacket 8 1 ackFlag 1000 [104, 105]
    let cut : List (Burst × FlushEnv) := [(⟨[syn, data], by decide⟩, env)]
    let cut' : List (Burst × FlushEnv) := [(⟨[syn], by decide⟩, env), (⟨[data], by decide⟩, env)]
    let result := (pollAll singleSlot cut).run (Memory.initial singleSlot)
    let result' := (pollAll singleSlot cut').run (Memory.initial singleSlot)
    result.1.length = 2 ∧ result.1 = result'.1 ∧ result.2.rx.slots = result'.2.rx.slots := by
  intro env syn data cut cut' result result'
  have unfailing : env.Unfailing := ⟨fun _ => rfl, Nat.le_refl _⟩
  have noneEnds : NoneEnds singleSlot (frames cut)
      (beginPoll.run (Memory.initial singleSlot)).2 := by
    refine ⟨?_, ?_, trivial⟩
    · unfold Unending
      decide
    · unfold Unending
      decide
  obtain ⟨told, _, _, slots, _⟩ := batching_is_invisible Run.refl cut cut' (List.cons_ne_nil _ _)
    (List.cons_ne_nil _ _) rfl noneEnds (by simp [cut, unfailing]) (by simp [cut', unfailing])
  exact ⟨by decide, told, slots⟩

end DpdkWrapper.Tcp
