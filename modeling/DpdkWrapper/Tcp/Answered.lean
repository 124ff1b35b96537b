import DpdkWrapper.Tcp.Batching

/-!
# Which segments are answered

The stack has no timers, so a peer that hears nothing goes on retransmitting.  A segment
that takes up sequence space is answered with one control segment, except in two cases:
a SYN with a fresh sequence number during a handshake, and data or a FIN on the segment
that acknowledges our FIN and ends the connection.  In these two cases nothing is sent at
all, so `Session.swallows` is exactly the condition under which the peer hears nothing.
-/

namespace DpdkWrapper.Tcp

open Threads Wire

/-- A SYN for a listening port, or payload or a FIN on a segment with ACK and without SYN
and RST. -/
def expectsAnswer (k : TcpStack) (seg : Segment) : Bool :=
  requests k seg ||
    (seg.has ackFlag && occupies seg && !seg.has synFlag && !seg.has rstFlag)

/-- The two cases in which `process_segment` leaves such a segment unanswered. -/
def Session.swallows (session : Session) (seg : Segment) : Bool :=
  match session.syncOutFlags.conn.state with
  | .synReceived => seg.has synFlag && seg.seq != session.conn.irs
  | .closing | .lastAck =>
      !seg.has synFlag && hasFinSent session.out.outFlags && seg.ack == session.out.sndNxt
  | _ => false

/-- A SYN-ACK, an ACK or a RST to the sender of a segment. -/
structure IsAnswer (k : TcpStack) (seg : Segment) (answer : TxSegment) : Prop where
  srcIp : answer.addr.srcIp = k.localIp
  srcPort : answer.addr.srcPort = seg.dstPort
  dstIp : answer.addr.dstIp = seg.srcIp
  dstPort : answer.addr.dstPort = seg.srcPort
  kind : answer.flags = (synFlag ||| ackFlag) ∨ answer.flags = ackFlag ∨
    answer.flags = rstFlag ∨ answer.flags = (rstFlag ||| ackFlag)

section

variable {k : TcpStack} {seg : Segment}

/-! ## Answers -/

theorem buildSegment_empty {room : Nat} (fits : 58 ≤ room) (addr : SegmentAddr)
    (seq ack : BitVec 32) (flags : Byte) (window mssOption : BitVec 16) :
    buildSegment room true addr seq ack flags window [] mssOption =
      some ⟨addr, seq, ack, flags, window, [], mssOption⟩ := by
  have headers (used count : Nat) (inside : used + count ≤ 58) :
      mbufAppend room used count = some (used + count) := if_pos (by omega)
  rw [buildSegment, if_pos rfl, headers 0 14 (by decide)]
  simp only [Option.bind_eq_bind, Option.bind_some]
  rw [headers _ 20 (by decide), Option.bind_some, headers _ 20 (by decide), Option.bind_some,
    appendMssOption]
  split
  · rw [headers _ 4 (by decide)]
    rfl
  · rfl

theorem rstFor_answers (fits : 58 ≤ k.mbufRoom) (seg : Segment) :
    ∃ answer, rstFor k seg true = some answer ∧ IsAnswer k seg answer := by
  rw [rstFor]
  dsimp only
  split
  · rw [buildSegment_empty fits]
    exact ⟨_, rfl, rfl, rfl, rfl, rfl, .inr (.inr (.inl rfl))⟩
  · rw [buildSegment_empty fits]
    exact ⟨_, rfl, rfl, rfl, rfl, rfl, .inr (.inr (.inr rfl))⟩

theorem synAck_answers (fits : 58 ≤ k.mbufRoom) {session : Session} (named : session.Matches seg) :
    ∃ answer, synAck k session.conn true = some answer ∧ IsAnswer k seg answer := by
  obtain ⟨peerIp, peerPort, localPort⟩ := named
  rw [synAck, buildSegment_empty fits]
  exact ⟨_, rfl, rfl, localPort.symm, peerIp.symm, peerPort.symm, .inl rfl⟩

theorem ackOf_answers (fits : 58 ≤ k.mbufRoom) {mem : Memory} {i : Nat}
    (named : (mem.session i).Matches seg) :
    ∃ answer, ackOf k mem i = some answer ∧ IsAnswer k seg answer := by
  obtain ⟨peerIp, peerPort, localPort⟩ := named
  rw [ackOf, buildSegment_empty fits]
  exact ⟨_, rfl, rfl, localPort.symm, peerIp.symm, peerPort.symm, .inr (.inl rfl)⟩

theorem rst_of_expects (expects : expectsAnswer k seg = true) : seg.has rstFlag = false := by
  rw [expectsAnswer, requests] at expects
  simp only [Bool.or_eq_true, Bool.and_eq_true, Bool.not_eq_true'] at expects
  rcases expects with ⟨⟨_, rst⟩, _⟩ | ⟨_, rst⟩
  · exact rst
  · exact rst

/-! ## One connection -/

theorem Session.cancels_of_unreset {session : Session} (rst : seg.has rstFlag = false) :
    session.cancels k seg = false := by
  rw [cancels, rst]
  split <;> rfl

theorem SameConn.matches {session session' : Session} (persists : SameConn session session')
    (named : session.Matches seg) : session'.Matches seg := by
  have identity := persists.identity
  constructor
  · exact named.peerIp.trans (congrArg TcpConnection.Identity.peerIp identity).symm
  · exact named.peerPort.trans (congrArg TcpConnection.Identity.peerPort identity).symm
  · exact named.localPort.trans (congrArg TcpConnection.Identity.localPort identity).symm

/-- `process_ack` stops at an ACK that is not beyond `snd_nxt` only if it ends the
connection. -/
theorem Session.processAck_stops {session : Session}
    (recorded : seqGt seg.ack session.out.sndNxt = false)
    (stops : (session.processAck seg).1 = false) :
    (session.conn.state = .closing ∨ session.conn.state = .lastAck) ∧
      hasFinSent session.out.outFlags = true ∧ seg.ack = session.out.sndNxt := by
  rw [processAck, if_neg (Bool.eq_false_iff.mp recorded), finishAck, record_state] at stops
  change Prod.fst (if hasFinSent session.out.outFlags && seg.ack == session.out.sndNxt then _
    else _) = false at stops
  split at stops
  · rename_i acked
    rw [Bool.and_eq_true, beq_iff_eq] at acked
    refine ⟨?_, acked⟩
    cases state : session.conn.state with
    | closing => exact .inl rfl
    | lastAck => exact .inr rfl
    | _ =>
        rw [state] at stops
        cases stops
  · cases stops

theorem Session.owes_of_expects {session : Session}
    (accepted : session.conn.state.accepted = true) (live : session.conn.state ≠ .closed)
    (expects : expectsAnswer k seg = true) (heard : session.swallows seg = false) :
    session.owes seg = true := by
  rw [(session.processSegment_synchronized seg k accepted live).2.1]
  rw [expectsAnswer, requests] at expects
  simp only [Bool.or_eq_true, Bool.and_eq_true, Bool.not_eq_true'] at expects
  rcases expects with ⟨⟨⟨syn, _⟩, rst⟩, _⟩ | ⟨⟨⟨ack, occupied⟩, syn⟩, rst⟩
  · rw [rst, syn]
    rfl
  · rw [rst, syn, ack, occupied]
    cases beyond : seqGt seg.ack session.out.sndNxt with
    | true => rfl
    | false =>
        cases goesOn : (session.syncOutFlags.processAck seg).1 with
        | true => rfl
        | false =>
            -- the ACK of our FIN ends the connection, and this is one of the two cases
            have out : session.syncOutFlags.out = session.out := by
              rw [syncOutFlags_eq]
              rfl
            rw [← out] at beyond
            obtain ⟨state, sent, acked⟩ := processAck_stops beyond goesOn
            rw [out] at sent acked
            rcases state with closing | lastAck
            · rw [swallows, closing, syn, sent, acked, beq_self_eq_true] at heard
              cases heard
            · rw [swallows, lastAck, syn, sent, acked, beq_self_eq_true] at heard
              cases heard

/-- The ACK of our FIN ends the connection, and `process_ack` stops there. -/
theorem Session.processAck_ends {session : Session}
    (state : session.conn.state = .closing ∨ session.conn.state = .lastAck)
    (sent : hasFinSent session.out.outFlags = true) (acked : seg.ack = session.out.sndNxt) :
    (session.processAck seg).1 = false := by
  have valid : seqGt seg.ack session.out.sndNxt = false := by rw [acked, seqGt_self]
  rw [processAck, valid, if_neg Bool.false_ne_true, finishAck, record_state]
  change Prod.fst (if hasFinSent session.out.outFlags && seg.ack == session.out.sndNxt then _
    else _) = false
  rw [sent, acked, beq_self_eq_true, Bool.and_self, if_pos rfl]
  rcases state with closing | lastAck
  · rw [closing]
  · rw [lastAck]

/-- The two cases, spelt out. -/
theorem Session.swallows_cases {session : Session} (swallowed : session.swallows seg = true) :
    session.conn.state = .synReceived ∧ seg.has synFlag = true ∧ seg.seq ≠ session.conn.irs ∨
      (session.syncOutFlags.conn.state = .closing ∨ session.syncOutFlags.conn.state = .lastAck) ∧
        seg.has synFlag = false ∧ hasFinSent session.out.outFlags = true ∧
          seg.ack = session.out.sndNxt := by
  rw [swallows] at swallowed
  split at swallowed
  · rename_i handshake
    rw [syncOutFlags_eq] at handshake
    rw [Bool.and_eq_true, bne_iff_ne] at swallowed
    exact .inl ⟨TcpState.synced_eq_synReceived handshake, swallowed⟩
  · rename_i closing
    simp only [Bool.and_eq_true, Bool.not_eq_true', beq_iff_eq] at swallowed
    exact .inr ⟨.inl closing, swallowed.1.1, swallowed.1.2, swallowed.2⟩
  · rename_i lastAck
    simp only [Bool.and_eq_true, Bool.not_eq_true', beq_iff_eq] at swallowed
    exact .inr ⟨.inr lastAck, swallowed.1.1, swallowed.1.2, swallowed.2⟩
  · cases swallowed

/-- A segment that is swallowed is for a live connection. -/
theorem Session.live_of_swallows {session : Session} (swallowed : session.swallows seg = true) :
    session.conn.state ≠ .free ∧ session.conn.state ≠ .closed := by
  rcases swallows_cases swallowed with ⟨state, _⟩ | ⟨ending, _⟩
  · rw [state]
    exact ⟨by rintro ⟨⟩, by rintro ⟨⟩⟩
  · rw [syncOutFlags_eq] at ending
    constructor
    · intro free
      change (session.conn.state.synced _ = _ ∨ session.conn.state.synced _ = _) at ending
      rw [free] at ending
      rcases ending with ⟨⟨⟩⟩ | ⟨⟨⟩⟩
    · intro closed
      change (session.conn.state.synced _ = _ ∨ session.conn.state.synced _ = _) at ending
      rw [closed] at ending
      rcases ending with ⟨⟨⟩⟩ | ⟨⟨⟩⟩

/-- A segment that is swallowed neither queues an ACK nor is answered at once. -/
theorem Session.silent_of_swallows {session : Session} (expects : expectsAnswer k seg = true)
    (swallowed : session.swallows seg = true) (pool : Bool) :
    session.owes seg = false ∧ session.reply k seg pool = none := by
  rcases swallows_cases swallowed with ⟨state, syn, fresh⟩ | ⟨ending, syn, sent, acked⟩
  · obtain ⟨_, owes, _⟩ := session.processSegment_unaccepted seg k state
    have unequal : (seg.seq == session.conn.irs) = false := beq_eq_false_iff_ne.mpr fresh
    rw [owes, reply, state, rst_of_expects expects, syn, unequal, Bool.and_false]
    exact ⟨rfl, rfl⟩
  · have out : session.syncOutFlags.out = session.out := by
      rw [syncOutFlags_eq]
      rfl
    have stops : (session.syncOutFlags.processAck seg).1 = false := by
      apply processAck_ends ending
      · rw [out, sent]
      · rw [out, acked]
    have valid : seqGt seg.ack session.out.sndNxt = false := by rw [acked, seqGt_self]
    constructor
    · rw [owes, syn, stops, valid]
      rcases ending with closing | lastAck
      · rw [closing]
        simp
      · rw [lastAck]
        simp
    · -- only a pending handshake is answered at once
      rw [reply]
      split
      · rename_i handshake
        rw [syncOutFlags_eq, handshake] at ending
        rcases ending with ⟨⟨⟩⟩ | ⟨⟨⟩⟩
      · rfl

/-- A live connection owes an ACK for such a segment or answers it at once. -/
theorem Session.answered (fits : 58 ≤ k.mbufRoom) {session : Session}
    (named : session.Matches seg) (unfree : session.conn.state ≠ .free)
    (unclosed : session.conn.state ≠ .closed) (expects : expectsAnswer k seg = true)
    (heard : session.swallows seg = false) :
    session.owes seg = true ∨
      session.owes seg = false ∧
        ∃ answer, session.reply k seg true = some answer ∧ IsAnswer k seg answer := by
  by_cases state : session.conn.state = .synReceived
  · obtain ⟨_, owes, _⟩ := session.processSegment_unaccepted seg k state
    have synced : session.syncOutFlags.conn.state = .synReceived := by
      rw [syncOutFlags_eq, state]
      rfl
    rw [swallows, synced] at heard
    rw [owes, reply, state]
    rw [expectsAnswer, requests] at expects
    simp only [Bool.or_eq_true, Bool.and_eq_true, Bool.not_eq_true'] at expects
    rcases expects with ⟨⟨⟨syn, ack⟩, rst⟩, _⟩ | ⟨⟨⟨ack, occupied⟩, syn⟩, rst⟩
    · have again : seg.seq = session.conn.irs := by simpa [syn] using heard
      obtain ⟨answer, built, isAnswer⟩ := synAck_answers fits named
      refine .inr ⟨by simp [syn], answer, ?_, isAnswer⟩
      simpa [syn, ack, rst, again] using built
    · by_cases expected : seg.ack = session.conn.iss + 1
      · exact .inl (by simp [syn, ack, rst, occupied, expected])
      · obtain ⟨answer, built, isAnswer⟩ := rstFor_answers fits seg
        have unequal : (seg.ack == session.conn.iss + 1) = false := beq_eq_false_iff_ne.mpr expected
        have differ : (seg.ack != session.conn.iss + 1) = true := bne_iff_ne.mpr expected
        rw [unequal, differ, rst, syn, ack]
        exact .inr ⟨rfl, answer, built, isAnswer⟩
  · have accepted : session.conn.state.accepted = true :=
      TcpState.accepted_iff.mpr ⟨unfree, state⟩
    exact .inl (owes_of_expects accepted unclosed expects heard)

/-! ## One poll -/

/-- A poll has begun and nothing is due yet. -/
structure NothingDue (mem : Memory) : Prop where
  control : mem.rx.control = []
  ackList : mem.rx.ackList = []
  idle : ∀ i, (mem.rx.slots i).ackPending = false
  unended : mem.rx.finalizeList = []

theorem NothingDue.beginPoll {mem : Memory} (reachable : Reachable k ⟨.idle, mem⟩) :
    NothingDue (beginPoll.run mem).2 := by
  have load := beginPoll_load reachable.inOrder reachable.loaded
  obtain ⟨control, ackList⟩ := load.nothing
  exact ⟨control, ackList, fun i => (beginPoll_settles mem).idle i (reachable.coalesced.idle rfl i),
    List.eq_nil_of_length_eq_zero (Nat.le_zero.mp load.finalizeList)⟩

theorem NothingDue.live {mem : Memory} (blank : NothingDue mem)
    (accounts : Accounting k mem.rx)
    {i : Nat} (inside : i < k.maxConnections) (inFlow : (mem.rx.summary i).InFlow) :
    (mem.rx.slots i).state ≠ .free ∧ (mem.rx.slots i).state ≠ .closed := by
  rcases inFlow with live | finalizing
  · exact (mem.rx.slots i).place_eq_live_iff.mp live
  · have listed := (accounts.finalizing.mem_iff i).mpr ⟨inside, finalizing⟩
    rw [blank.unended] at listed
    cases listed

/-- A control segment alone. -/
theorem flushed_of_control {mem : Memory} {answer : TxSegment}
    (control : mem.rx.control = [.tcp answer]) (ackList : mem.rx.ackList = [])
    (env : FlushEnv) : flushed k mem env = [.tcp answer] := by
  rw [flushed, control, pureAcks, ackList]
  rfl

/-- An ACK alone. -/
theorem flushed_of_ack {mem : Memory} {answer : TxSegment} {idx : Nat}
    (control : mem.rx.control = []) (ackList : mem.rx.ackList = [idx])
    (pending : (mem.rx.slots idx).ackPending = true) (built : ackOf k mem idx = some answer)
    {env : FlushEnv} (pool : ∀ n, env.ackPool n = true) : flushed k mem env = [.tcp answer] := by
  have ack := (@pureAck_eq_ackOf k mem env.ackPool pool idx 0 pending).trans built
  rw [flushed, control, pureAcks, ackList]
  simp [ack]

/-- After such a packet one answer is due. -/
theorem process_answered {mem : Memory} (blank : NothingDue mem)
    (accounts : Accounting k mem.rx) {packet : RxPacket}
    (decoded : decode k packet.frame packet.contiguous = some (.segment seg))
    (expects : expectsAnswer k seg = true) (fits : 58 ≤ k.mbufRoom) (pool : packet.pool = true)
    (heard : ∀ i < k.maxConnections, (mem.rx.summary i).InFlow → (mem.session i).Matches seg →
      (mem.session i).swallows seg = false)
    {env : FlushEnv} (ackPool : ∀ n, env.ackPool n = true) :
    ∃ answer, IsAnswer k seg answer ∧
      flushed k ((process k packet).run mem).2 env = [.tcp answer] := by
  have dispatch := process_dispatch accounts packet
  generalize ((process k packet).run mem).2 = mem' at dispatch
  cases dispatch with
  | other undecoded => exact absurd decoded (undecoded seg)
  | refused decoded' _ _ answers =>
      cases decoded.symm.trans decoded'
      have rst := rst_of_expects expects
      obtain ⟨answer, built, isAnswer⟩ := rstFor_answers fits seg
      have control := answers.control
      rw [blank.control, refusal, rst, pool, if_neg Bool.false_ne_true, built] at control
      exact ⟨answer, isAnswer, flushed_of_control control (answers.ackList.trans blank.ackList) env⟩
  | @opened seg' idx rest peerMss decoded' =>
      cases decoded.symm.trans decoded'
      have serves := openSlot_serves k idx seg peerMss packet.rand packet.pool mem
      have named : ((mem.session idx).openFor k seg peerMss packet.rand).Matches seg :=
        ⟨rfl, rfl, rfl⟩
      obtain ⟨answer, built, isAnswer⟩ := synAck_answers fits named
      have control := serves.control
      rw [blank.control, pool, built] at control
      exact ⟨answer, isAnswer, flushed_of_control (pool ▸ control)
        (serves.ackList.trans blank.ackList) env⟩
  | @segment seg' idx decoded' inside inFlow named =>
      cases decoded.symm.trans decoded'
      have serves := processSegment_serves k idx seg packet.pool mem
      have turns := processSegment_turns idx seg mem k packet.pool
      obtain ⟨unfree, unclosed⟩ := blank.live accounts inside inFlow
      have control := serves.control
      have ackList := serves.ackList
      have pending := serves.pending
      rw [blank.control] at control
      rw [blank.ackList, blank.idle] at ackList
      rw [blank.idle] at pending
      rcases Session.answered fits named unfree unclosed expects
        (heard idx inside inFlow named) with
        owed | ⟨unowed, answer, built, isAnswer⟩
      · rw [Session.reply_eq_none k seg packet.pool owed] at control
        rw [owed] at ackList
        rw [owed, Session.cancels_of_unreset (rst_of_expects expects)] at pending
        have persists := SameConn.processSegment (mem.session idx) seg k
        rw [← turns.here] at persists
        obtain ⟨answer, built, isAnswer⟩ := ackOf_answers fits (persists.matches named)
        exact ⟨answer, isAnswer, flushed_of_ack control ackList pending built ackPool⟩
      · rw [unowed] at ackList
        rw [pool, built] at control
        exact ⟨answer, isAnswer, flushed_of_control (pool ▸ control) ackList env⟩

/-- After a packet that is swallowed nothing is due. -/
theorem process_swallowed {mem : Memory} (blank : NothingDue mem)
    (accounts : Accounting k mem.rx) {packet : RxPacket}
    (decoded : decode k packet.frame packet.contiguous = some (.segment seg))
    (expects : expectsAnswer k seg = true) {i : Nat} (inside : i < k.maxConnections)
    (inFlow : (mem.rx.summary i).InFlow) (named : (mem.session i).Matches seg)
    (swallowed : (mem.session i).swallows seg = true) (env : FlushEnv) :
    flushed k ((process k packet).run mem).2 env = [] := by
  have dispatch := process_dispatch accounts packet
  generalize ((process k packet).run mem).2 = mem' at dispatch
  cases dispatch with
  | other undecoded => exact absurd decoded (undecoded seg)
  | refused decoded' unknown =>
      cases decoded.symm.trans decoded'
      exact absurd named (unknown i inside inFlow)
  | opened decoded' unknown =>
      cases decoded.symm.trans decoded'
      exact absurd named (unknown i inside inFlow)
  | @segment _ idx decoded' idxInside idxInFlow idxNamed =>
      cases decoded.symm.trans decoded'
      obtain rfl := eq_of_matches accounts inside idxInside inFlow idxInFlow named idxNamed
      have serves := processSegment_serves k i seg packet.pool mem
      obtain ⟨unowed, noReply⟩ := Session.silent_of_swallows expects swallowed packet.pool
      have control := serves.control
      have ackList := serves.ackList
      rw [blank.control, noReply] at control
      rw [blank.ackList, unowed] at ackList
      rw [flushed, control, pureAcks, ackList]
      rfl

/-- The start of a poll leaves the connections in the flow table alone. -/
theorem beginPoll_session_eq {mem : Memory} (accounts : Accounting k mem.rx) {i : Nat}
    (unfree : ((beginPoll.run mem).2.rx.slots i).state ≠ .free) :
    (beginPoll.run mem).2.session i = mem.session i := by
  have step := beginPoll_session accounts i
  rw [← session_state] at unfree
  generalize (beginPoll.run mem).2.session i = session at step unfree
  cases step with
  | idle => rfl
  | freed => exact absurd rfl unfree

/-- The start of a poll leaves live connections alone. -/
theorem beginPoll_session_of_live {mem : Memory} (accounts : Accounting k mem.rx) {i : Nat}
    (live : (mem.session i).conn.state ≠ .closed) :
    (beginPoll.run mem).2.session i = mem.session i := by
  have step := beginPoll_session accounts i
  generalize (beginPoll.run mem).2.session i = session at step
  cases step with
  | idle => rfl
  | freed _ closed => exact absurd closed live

/-- What a poll of one packet sends is what is due after the packet. -/
theorem poll_single_emits {mem : Memory} (reachable : Reachable k ⟨.idle, mem⟩)
    {packet : RxPacket} {burst : Burst} (alone : burst.packets = [packet]) {env : FlushEnv}
    (unfailing : env.Unfailing) :
    emitted ((poll k burst env).run mem).2.rx.log =
      (flushed k ((process k packet).run (beginPoll.run mem).2).2 env).reverse ++
        emitted mem.rx.log := by
  have began : Reachable k ⟨.polling 0, (beginPoll.run mem).2⟩ :=
    reachable.step (.task .beginPoll rfl) trivial
  have processed : Reachable k ⟨.polling 1, ((process k packet).run (beginPoll.run mem).2).2⟩ :=
    began.step (.task (.packet packet) rfl) trivial
  have polled : ((poll k burst env).run mem).2 =
      ((endPoll k env).run ((process k packet).run (beginPoll.run mem).2).2).2 := by
    rw [poll, alone, Program.run_bind', Program.run_bind', Program.run_bind',
      Program.run_forEach_cons]
    rfl
  rw [polled]
  have emits := endPoll_emits (k := k) processed.coalesced.owing processed.loaded.room env
    unfailing.queue
  rw [emitted_process, beginPoll_emitted] at emits
  exact emits

/-- A segment that takes up sequence space is answered unless it is swallowed.  Take any
reachable state between polls and a packet with a SYN for a listening port, or with ACK,
payload or FIN, and neither SYN nor RST, polled alone, with buffers that take a SYN-ACK and
a queue that takes it.  Exactly one control segment goes to its sender, a SYN-ACK, an ACK
or a RST, if and only if no connection of its tuple swallows it.  If one does, nothing is
sent at all. -/
theorem sequence_space_is_answered {k : TcpStack} {mem : Memory}
    (reachable : Reachable k ⟨.idle, mem⟩) {packet : RxPacket} {seg : Segment}
    (decoded : decode k packet.frame packet.contiguous = some (.segment seg))
    (expects : expectsAnswer k seg = true) (pool : packet.pool = true) (fits : 58 ≤ k.mbufRoom)
    {burst : Burst} (alone : burst.packets = [packet]) {env : FlushEnv}
    (unfailing : env.Unfailing) :
    ((∃ answer, IsAnswer k seg answer ∧
        emitted ((poll k burst env).run mem).2.rx.log =
          .tcp answer :: emitted mem.rx.log) ↔
      ∀ i < k.maxConnections, (mem.session i).Matches seg →
        (mem.session i).swallows seg = false) ∧
    ((∃ i < k.maxConnections, (mem.session i).Matches seg ∧
        (mem.session i).swallows seg = true) →
      emitted ((poll k burst env).run mem).2.rx.log = emitted mem.rx.log) := by
  have began : Reachable k ⟨.polling 0, (beginPoll.run mem).2⟩ :=
    reachable.step (.task .beginPoll rfl) trivial
  have blank := NothingDue.beginPoll reachable
  have accounts := began.inOrder.accounts
  have emits := poll_single_emits reachable alone unfailing
  have answered (heard : ∀ i < k.maxConnections, (mem.session i).Matches seg →
      (mem.session i).swallows seg = false) :
      ∃ answer, IsAnswer k seg answer ∧
        emitted ((poll k burst env).run mem).2.rx.log =
          .tcp answer :: emitted mem.rx.log := by
    obtain ⟨answer, isAnswer, flushes⟩ := process_answered blank accounts decoded expects fits pool
      (fun i inside inFlow named => by
        have same := beginPoll_session_eq reachable.inOrder.accounts
          (blank.live accounts inside inFlow).1
        rw [same] at named ⊢
        exact heard i inside named)
      unfailing.pool
    rw [flushes] at emits
    exact ⟨answer, isAnswer, emits⟩
  have silent : (∃ i < k.maxConnections, (mem.session i).Matches seg ∧
      (mem.session i).swallows seg = true) →
      emitted ((poll k burst env).run mem).2.rx.log = emitted mem.rx.log := by
    rintro ⟨i, inside, named, swallowed⟩
    obtain ⟨unfree, unclosed⟩ := Session.live_of_swallows swallowed
    have same := beginPoll_session_of_live reachable.inOrder.accounts unclosed
    rw [← same] at named swallowed unfree unclosed
    have flushes := process_swallowed blank accounts decoded expects inside
      (accounts.inFlow_of_live inside unfree unclosed) named swallowed env
    rw [flushes] at emits
    exact emits
  refine ⟨⟨?_, answered⟩, silent⟩
  rintro ⟨answer, _, sent⟩ i inside named
  rw [← Bool.not_eq_true]
  intro swallowed
  have nothing := silent ⟨i, inside, named, swallowed⟩
  rw [sent] at nothing
  exact absurd nothing (List.cons_ne_self _ _)

/-- A first SYN. -/
theorem sequence_space_is_answered_of_syn :
    let burst : Burst := ⟨[peerPacket 7 0 synFlag 1000 []], by decide⟩
    let env : FlushEnv := ⟨fun _ => true, maxControl⟩
    ∃ answer : TxSegment, answer.addr.dstPort = 4000 ∧
      emitted ((poll singleSlot burst env).run (Memory.initial singleSlot)).2.rx.log =
        [.tcp answer] := by
  intro burst env
  have decoded : decode singleSlot (peerPacket 7 0 synFlag 1000 []).frame true =
      some (.segment (peerSegment 7 0 synFlag 1000 [] (by decide))) := by decide
  have unfailing : env.Unfailing := ⟨fun _ => rfl, Nat.le_refl _⟩
  have initial : Reachable singleSlot ⟨.idle, Memory.initial singleSlot⟩ := Run.refl
  have alone : burst.packets = [peerPacket 7 0 synFlag 1000 []] := rfl
  obtain ⟨answer, isAnswer, sent⟩ := (sequence_space_is_answered initial decoded (by decide) rfl
    (by decide) alone unfailing).1.mpr
      fun i _ _ => by rw [Session.swallows, Session.syncOutFlags_eq]; rfl
  exact ⟨answer, isAnswer.dstPort, sent⟩

/-- A poll of one packet of the peer, with nothing failing. -/
def pollPeer (packet : RxPacket) (mem : Memory) : Memory :=
  ((poll singleSlot ⟨[packet], Nat.succ_le_succ (Nat.zero_le _)⟩ ⟨fun _ => true, maxControl⟩).run
    mem).2

theorem pollPeer_reachable (packet : RxPacket) {mem : Memory}
    (reachable : Reachable singleSlot ⟨.idle, mem⟩) :
    Reachable singleSlot ⟨.idle, pollPeer packet mem⟩ :=
  run_poll singleSlot _ _ reachable

/-- A handshake is pending. -/
def singleSlotPending : Memory :=
  pollPeer (peerPacket 7 0 synFlag 1000 []) (Memory.initial singleSlot)

/-- The connection was accepted and closed, and the peer has sent its own FIN before it
has seen ours. -/
def singleSlotClosing : Memory :=
  pollPeer (peerPacket 8 1 (finFlag ||| ackFlag) 1000 [])
    (((Call.close ⟨0, 1⟩ ⟨fun _ => true, fun _ => true⟩).code singleSlot).run
      (pollPeer (peerPacket 8 1 ackFlag 1000 []) singleSlotPending)).2

theorem singleSlotPending_reachable : Reachable singleSlot ⟨.idle, singleSlotPending⟩ :=
  pollPeer_reachable _ Run.refl

theorem singleSlotClosing_reachable : Reachable singleSlot ⟨.idle, singleSlotClosing⟩ := by
  apply pollPeer_reachable
  exact (pollPeer_reachable _ singleSlotPending_reachable).step (.call _) trivial

/-- Neither a SYN with a fresh sequence number during a handshake, nor the retransmitted
FIN of a peer that has meanwhile seen ours, is answered. -/
theorem fresh_syn_and_last_fin_are_swallowed :
    let syn := peerPacket 9 0 synFlag 1000 []
    let fin := peerPacket 8 2 (finFlag ||| ackFlag) 1000 []
    (Reachable singleSlot ⟨.idle, singleSlotPending⟩ ∧
      (∃ seg, decode singleSlot syn.frame syn.contiguous = some (.segment seg) ∧
        expectsAnswer singleSlot seg = true) ∧
      emitted (pollPeer syn singleSlotPending).rx.log = emitted singleSlotPending.rx.log) ∧
    (Reachable singleSlot ⟨.idle, singleSlotClosing⟩ ∧
      (∃ seg, decode singleSlot fin.frame fin.contiguous = some (.segment seg) ∧
        expectsAnswer singleSlot seg = true) ∧
      emitted (pollPeer fin singleSlotClosing).rx.log = emitted singleSlotClosing.rx.log) := by
  intro syn fin
  refine ⟨⟨singleSlotPending_reachable, ⟨peerSegment 9 0 synFlag 1000 [] (by decide), ?_, ?_⟩, ?_⟩,
    singleSlotClosing_reachable,
    ⟨peerSegment 8 2 (finFlag ||| ackFlag) 1000 [] (by decide), ?_, ?_⟩, ?_⟩
  all_goals decide +kernel

end

end DpdkWrapper.Tcp
