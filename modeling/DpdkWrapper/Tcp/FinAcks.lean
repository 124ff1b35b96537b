import DpdkWrapper.Tcp.WireStream

/-!
# The ACK of our FIN

`close` stores `snd_nxt` and then `out_fin_sent`, and only then hands the FIN to the queue;
`process_ack` loads them in the opposite order.  So if the queue has taken the FIN before a
segment that acknowledges it arrives, the receiver sees both, whatever the outbound thread does
meanwhile, and after this segment the connection is in `fin_wait_2` or closed.

The proof follows the segment through `process_segment` with the rules of rely and guarantee.
What the other thread can do meanwhile is described by `FinTaken`: once the FIN has been taken,
no call moves `snd_nxt` or takes the flag back.
-/

namespace DpdkWrapper.Tcp

open Threads Wire

/-- The queue has taken the FIN of the connection in slot `i`, and `seq` is the number after
it. -/
structure FinTaken (i : Nat) (seq : BitVec 32) (mem : Memory) : Prop where
  fin : HasFin (wire i mem.tx.log)
  finSent : hasFinSent (mem.tx.slots i).outFlags = true
  sndNxt : (mem.tx.slots i).sndNxt = seq

section Outbound

variable {k : TcpStack} {admits : Memory → Task → Prop} {system : System k admits} {i : Nat}
  {seq : BitVec 32} {mem mem' : Memory}

/-- Once the FIN has been taken, nothing is published behind it. -/
theorem AlwaysCovered.finTaken (covers : AlwaysCovered i mem)
    (accepted : (mem.rx.slots i).state.accepted = true)
    (fin : HasFin (wire i mem.tx.log)) : FinTaken i (mem.view i).reached mem := by
  obtain ⟨lag, _, streams, finished⟩ := SlotView.Covered.covers covers accepted
  obtain ⟨none, finSent⟩ := finished fin
  subst none
  exact ⟨fin, finSent, streams.sndNxt.trans (BitVec.add_zero _)⟩

theorem FinTaken.of_out (taken : FinTaken i seq mem) (out : mem'.tx.slots i = mem.tx.slots i)
    (fin : HasFin (wire i mem'.tx.log)) : FinTaken i seq mem' :=
  ⟨fin, by rw [out]; exact taken.finSent, by rw [out]; exact taken.sndNxt⟩

/-- Once the FIN has been taken, `snd_nxt` does not change any more. -/
theorem Uses.finTaken {caller : Option ConnId} (uses : Uses i caller mem mem')
    (before : AlwaysCovered i mem) (after : AlwaysCovered i mem') (taken : FinTaken i seq mem) :
    FinTaken i seq mem' := by
  have step := uses.outStep.slot i
  rcases uses.sends with sameWire | ⟨sameOut, segments, _, grown⟩
  · have fin : HasFin (wire i mem'.tx.log) := by
      rw [sameWire]
      exact taken.fin
    rcases step.out rfl with sameOut | held
    · exact taken.of_out sameOut fin
    · -- a store leaves the end of the wire, and this is where `snd_nxt` has to be
      have accepted : (mem'.view i).conn.state.accepted = true := by
        rw [step.conn]
        exact held.1
      have finished := after.finTaken accepted fin
      have reached : (mem'.view i).reached = (mem.view i).reached := by
        rw [SlotView.reached, step.conn, show (mem'.view i).wire = _ from sameWire]
        rfl
      rw [reached, ← (before.finTaken held.1 taken.fin).sndNxt, taken.sndNxt] at finished
      exact finished
  · obtain ⟨segment, member, marked⟩ := taken.fin
    refine taken.of_out sameOut ⟨segment, ?_, marked⟩
    rw [grown]
    exact List.mem_append_right _ member

/-- The outbound thread cannot take the FIN back. -/
theorem System.Reachable.finTaken (run : system.Reachable) (few : FewOpens i system.state)
    (taken : FinTaken i seq system.state) {busy : Busy (outboundThread k)}
    (advances : (outboundThread k).Advances system.state system.second mem busy) :
    mem.rx = system.state.rx ∧ FinTaken i seq mem := by
  have next : System.Reachable (⟨mem, system.first, busy⟩ : System k admits) :=
    run.tail (.second advances trivial)
  have uses := (run.steps few).2 mem busy advances
  have sameRx : mem.rx = system.state.rx := uses.outStep.rx
  have covers' : AlwaysCovered i mem := (next.covers (by rw [FewOpens, sameRx]; exact few)).2
  exact ⟨sameRx, uses.finTaken (run.covers few).2 covers' taken⟩

end Outbound

/-! ## Processing the segment -/

/-- While the FIN stays taken, the outbound thread leaves the receiver's state alone. -/
def finProtocol (i : Nat) (seq : BitVec 32) : Protocol Memory where
  rely mem mem' := mem'.rx = mem.rx ∧ (FinTaken i seq mem → FinTaken i seq mem')
  assume _ _ := True
  guarantee _ _ := True
  rely_refl _ := ⟨rfl, id⟩
  rely_trans _ _ _ left right := ⟨right.1.trans left.1, right.2 ∘ left.2⟩
  guarantee_refl _ := trivial

/-- The FIN has been taken, and something is known of the receiver's state. -/
structure AfterFin (i : Nat) (seq : BitVec 32) (known : Receiver → Prop) (mem : Memory) :
    Prop where
  taken : FinTaken i seq mem
  known : known mem.rx

section Rules

variable {i : Nat} {seq : BitVec 32} {known known' : Receiver → Prop} {mem later : Memory}
  {α β : Type} {post : β → Memory → Prop}

section

variable (held : AfterFin i seq known mem)
include held

theorem AfterFin.stable (moves : (finProtocol i seq).rely mem later) : AfterFin i seq known later :=
  ⟨moves.2 held.taken, by rw [moves.1]; exact held.known⟩

theorem AfterFin.weaken (implies : ∀ rx, known rx → known' rx) : AfterFin i seq known' mem :=
  ⟨held.taken, implies _ held.known⟩

theorem AfterFin.done (value : α) :
    (Program.done value : Code α).Meets (finProtocol i seq)
      (fun result later => result = value ∧ AfterFin i seq known later) mem :=
  Program.meets_done fun _ moves => ⟨rfl, held.stable moves⟩

/-- The rule for a step of the receiver. -/
theorem AfterFin.inbound {change : Receiver → Receiver}
    (takes : ∀ rx, known rx → known' (change rx)) :
    (Tcp.inbound change).Meets (finProtocol i seq) (fun _ => AfterFin i seq known') mem :=
  Program.meets_modify_of (fun _ _ moves held => held.stable moves)
    (fun _ _ moves held => held.stable moves)
    (fun first held => ⟨trivial, ⟨held.taken.fin, held.taken.finSent, held.taken.sndNxt⟩,
      takes first.rx held.known⟩) held

theorem AfterFin.viewRx_bind {value : Receiver → α} {rest : α → Code β}
    (continues : ∀ later, AfterFin i seq known later →
      (rest (value later.rx)).Meets (finProtocol i seq) post later) :
    (viewRx value >>= rest).Meets (finProtocol i seq) post mem :=
  Program.meets_read_bind fun later moves => continues later (held.stable moves)

/-- `out_fin_sent` is visible. -/
theorem AfterFin.loadOutFlags_bind {rest : BitVec 8 → Code β}
    (continues : ∀ out later, hasFinSent out = true → AfterFin i seq known later →
      (rest out).Meets (finProtocol i seq) post later) :
    (loadOutFlags i >>= rest).Meets (finProtocol i seq) post mem :=
  Program.meets_read_bind fun later moves =>
    have held := held.stable moves
    continues _ later held.taken.finSent held

end

theorem AfterFin.when {condition : Bool} {program : Code Unit} (held : AfterFin i seq known mem)
    (implies : ∀ rx, known rx → known' rx)
    (meets : condition = true →
      program.Meets (finProtocol i seq) (fun _ => AfterFin i seq known') mem) :
    (Program.when condition program).Meets (finProtocol i seq) (fun _ => AfterFin i seq known')
      mem := by
  cases condition with
  | true => exact meets rfl
  | false => exact (held.weaken implies).done () |>.mono fun _ _ after => after.2

end Rules

/-- The connection is in one of some states. -/
def InState (i : Nat) (states : List TcpState) (rx : Receiver) : Prop :=
  (rx.slots i).state ∈ states

/-- The states of an accepted connection that has not ended. -/
def beforeSync : List TcpState :=
  [.established, .closeWait, .finWait1, .finWait2, .closing, .lastAck]

/-- The same after `sync_out_flags` has seen our FIN. -/
def beforeAck : List TcpState :=
  [.finWait1, .finWait2, .closing, .lastAck]

/-- The states after the ACK of our FIN. -/
def afterAck : List TcpState :=
  [.finWait2, .closed]

section Walk

variable {k : TcpStack} {i : Nat} {seq : BitVec 32} {seg : Segment} {states : List TcpState}
  {mem : Memory}

theorem queueAck_state (rx : Receiver) (i : Nat) :
    ((rx.queueAck i).slots i).state = (rx.slots i).state := by
  simp

/-- A step that does not change the state. -/
theorem AfterFin.keeps (held : AfterFin i seq (InState i states) mem)
    {change : Receiver → Receiver}
    (same : ∀ rx, ((change rx).slots i).state = (rx.slots i).state) :
    (Tcp.inbound change).Meets (finProtocol i seq) (fun _ => AfterFin i seq (InState i states))
      mem :=
  held.inbound fun rx known => by
    rw [InState, same]
    exact known

/-- A step that stores a state. -/
theorem AfterFin.enters {state : TcpState} (held : AfterFin i seq (InState i states) mem)
    {change : TcpConnection → TcpConnection} (member : state ∈ afterAck)
    (stores : ∀ c, (change c).state = state) :
    (Tcp.inbound fun rx => rx.updateSlot i change).Meets (finProtocol i seq)
      (fun _ => AfterFin i seq (InState i afterAck)) mem :=
  held.inbound fun rx _ => by
    rw [InState, Receiver.updateSlot_slots, if_pos rfl, stores]
    exact member

theorem terminate_afterAck (held : AfterFin i seq (InState i states) mem) :
    (terminate i .closed).Meets (finProtocol i seq)
      (fun _ => AfterFin i seq (InState i afterAck)) mem := by
  refine (held.enters (by decide : .closed ∈ afterAck) fun _ => rfl).andThen fun _ _ held => ?_
  exact held.keeps fun rx => by simp

/-- The peer's FIN after the ACK of ours. -/
theorem consumeFin_afterAck (held : AfterFin i seq (InState i afterAck) mem) :
    (consumeFin i).Meets (finProtocol i seq) (fun _ => AfterFin i seq (InState i afterAck))
      mem := by
  have takes : ∀ rx, ((takeFin i rx).slots i).state = (rx.slots i).state := by
    intro rx
    simp [takeFin]
  refine held.viewRx_bind fun later held => ?_
  rcases List.mem_cons.mp held.known with waiting | closed
  · rw [waiting]
    exact (held.keeps takes).andThen fun _ _ held => terminate_afterAck held
  · rw [List.mem_singleton.mp closed]
    exact held.keeps takes

/-- Data after the ACK of our FIN. -/
theorem processData_afterAck (held : AfterFin i seq (InState i afterAck) mem) :
    (processData i seg).Meets (finProtocol i seq) (fun _ => AfterFin i seq (InState i afterAck))
      mem := by
  refine held.viewRx_bind fun later held => ?_
  split
  · exact held.when (fun _ => id) fun _ => held.keeps fun rx => queueAck_state rx i
  split
  · exact (held.done ()).mono fun _ _ after => after.2
  split
  · exact held.keeps fun rx => queueAck_state _ i
  refine (held.keeps fun rx => ?_).andThen fun _ _ held => ?_
  · rw [queueAck_state, deliver_state]
  refine held.viewRx_bind fun later held => ?_
  refine (held.when (fun _ => id) fun _ => consumeFin_afterAck held).andThen ?_
  exact fun _ _ held => held.keeps fun rx => by simp

/-- `sync_out_flags` cannot miss our FIN: `out_flags` has it since before the FIN was sent. -/
theorem syncOutFlags_beforeAck (held : AfterFin i seq (InState i beforeSync) mem) :
    (syncOutFlags i).Meets (finProtocol i seq) (fun _ => AfterFin i seq (InState i beforeAck))
      mem := by
  refine held.loadOutFlags_bind fun out later finSent held => ?_
  rw [finSent, Program.when, if_pos rfl]
  refine held.inbound fun rx known => ?_
  rw [InState, Receiver.updateSlot_slots, if_pos rfl]
  simp only [InState, beforeSync, List.mem_cons, List.not_mem_nil, or_false] at known
  -- the first two states move on, the other four are kept
  rcases known with state | state | state | state | state | state <;>
    simp only [state, beforeAck, List.mem_cons, true_or, or_true]

theorem finishAck_afterAck {out : BitVec 8} (finSent : hasFinSent out = true)
    (all : seg.ack = seq) (held : AfterFin i seq (InState i beforeAck) mem) :
    (finishAck i seg out seq).Meets (finProtocol i seq)
      (fun _ => AfterFin i seq (InState i afterAck)) mem := by
  rw [finishAck, finSent, all, beq_self_eq_true, Bool.and_self, if_pos rfl]
  refine held.viewRx_bind fun later held => ?_
  have ends : ∀ {value : Bool} {final : Memory}, AfterFin i seq (InState i afterAck) final →
      (Program.done value : Code Bool).Meets (finProtocol i seq)
        (fun _ => AfterFin i seq (InState i afterAck)) final :=
    fun held => (held.done _).mono fun _ _ after => after.2
  have here := held.known
  unfold InState beforeAck at here
  cases state : (later.rx.slots i).state <;> rw [state] at here
  case finWait1 =>
    exact (held.enters (by decide : .finWait2 ∈ afterAck) fun _ => rfl).andThen
      fun _ _ held => ends held
  case finWait2 =>
    refine ends ⟨held.taken, ?_⟩
    rw [InState, state]
    decide
  case closing => exact (terminate_afterAck held).andThen fun _ _ held => ends held
  case lastAck => exact (terminate_afterAck held).andThen fun _ _ held => ends held
  all_goals simp at here

/-- `process_ack` with an ACK of everything that has been sent. -/
theorem processAck_afterAck (all : seg.ack = seq)
    (held : AfterFin i seq (InState i beforeAck) mem) :
    (processAck i seg).Meets (finProtocol i seq) (fun _ => AfterFin i seq (InState i afterAck))
      mem := by
  refine held.loadOutFlags_bind fun out later finSent held => ?_
  refine Program.meets_atomically_bind fun later moves _ => ?_
  have held := held.stable moves
  have valid : seqGt seg.ack (later.tx.slots i).sndNxt = false := by
    rw [all, held.taken.sndNxt, seqGt_self]
  dsimp only
  rw [valid, if_neg Bool.false_ne_true]
  refine ⟨trivial, ?_⟩
  have recorded : AfterFin i seq (InState i beforeAck)
      ⟨later.rx.updateSlot i (recordAck seg), later.tx⟩ := by
    refine ⟨⟨held.taken.fin, held.taken.finSent, held.taken.sndNxt⟩, ?_⟩
    rw [InState, Receiver.updateSlot_slots, if_pos rfl, recordAck_state]
    exact held.known
  rw [held.taken.sndNxt]
  refine (recorded.when (fun _ => id) fun _ => recorded.keeps fun rx => by simp).andThen ?_
  exact fun _ _ held => finishAck_afterAck finSent all held

/-- The whole path of the segment, whatever calls the application makes meanwhile. -/
theorem processSegment_afterAck (plain : Plain seg) (all : seg.ack = seq) (pool : Bool)
    (held : AfterFin i seq (InState i beforeSync) mem) :
    (processSegment k i seg pool).Meets (finProtocol i seq)
      (fun _ => AfterFin i seq (InState i afterAck)) mem := by
  have synchronized : ∀ {mem : Memory}, AfterFin i seq (InState i beforeAck) mem →
      (processSynchronized k i seg).Meets (finProtocol i seq)
        (fun _ => AfterFin i seq (InState i afterAck)) mem := by
    intro mem held
    refine held.viewRx_bind fun later held => ?_
    rw [plain.rst, plain.syn, plain.ack]
    refine (processAck_afterAck all held).andThen fun proceed _ held => ?_
    exact held.when (fun _ => id) fun _ => processData_afterAck held
  refine (syncOutFlags_beforeAck held).andThen fun _ _ held => ?_
  refine held.viewRx_bind fun later held => ?_
  have here := held.known
  unfold InState beforeAck at here
  cases state : (later.rx.slots i).state <;> rw [state] at here
  case finWait1 | finWait2 | closing | lastAck => exact synchronized held
  all_goals simp at here

end Walk

/-! ## All interleavings -/

section Runs

variable {k : TcpStack} {admits : Memory → Task → Prop} {i : Nat} {seg : Segment}
  {system start last : System k admits} {packet : RxPacket}

/-- Runs in which the slot is not opened too often are runs. -/
theorem Interleaves.few
    (run : Interleaves (fun _ mem => FewOpens i mem) (System.initial k admits) system) :
    system.Reachable ∧ FewOpens i system.state := by
  constructor
  · refine Relation.ReflTransGen.mono (fun _ _ step => ?_) _ _ run
    cases step with
    | first advances => exact .first advances trivial
    | second advances => exact .second advances trivial
  · cases run with
    | refl => exact (by decide : 0 < openLimit)
    | tail _ step =>
        cases step with
        | first _ permitted => exact permitted
        | second _ permitted => exact permitted

/-- A segment that acknowledges our FIN is processed while both threads run: if the queue had
taken the FIN when processing began, the connection is in `fin_wait_2` or closed afterwards. -/
theorem ack_of_fin_is_never_missed
    (run : Interleaves (fun _ mem => FewOpens i mem) (System.initial k admits) start)
    (begins : start.first.program = (Task.packet packet).code k)
    (decoded : decode k packet.frame packet.contiguous = some (.segment seg))
    (plain : Plain seg)
    (finds : start.state.rx.flows.find (FlowTable.key seg.srcIp seg.srcPort seg.dstPort) = some i)
    (live : (start.state.rx.slots i).state ∈ beforeSync)
    (fin : HasFin (wire i start.state.tx.log)) (all : seg.ack = (start.state.view i).reached)
    (proceeds : Relation.ReflTransGen (MovesWithin fun _ mem => FewOpens i mem) start last)
    (ends : last.first.program = .done ()) :
    (last.state.rx.slots i).state = .finWait2 ∨ (last.state.rx.slots i).state = .closed := by
  obtain ⟨reachable, few⟩ := Interleaves.few run
  obtain ⟨ids, covers⟩ := reachable.covers few
  have accepted : (start.state.rx.slots i).state.accepted = true := by
    revert live
    cases (start.state.rx.slots i).state <;> decide
  have inside : i ≠ FlowTable.npos := by
    have small := k.maxConnections_lt
    have bound : i < k.maxConnections := by
      by_contra beyond
      rw [(ids.outside (Nat.le_of_not_lt beyond)).1] at accepted
      cases accepted
    exact Nat.ne_of_lt (Nat.lt_trans (Nat.lt_trans bound small) (by decide))
  have held : AfterFin i seg.ack (fun rx => InState i beforeSync rx ∧
      rx.flows.find (FlowTable.key seg.srcIp seg.srcPort seg.dstPort) = some i) start.state :=
    ⟨all ▸ covers.finTaken accepted fin, live, finds⟩
  have meets : start.first.program.Meets (finProtocol i seg.ack)
      (fun _ => AfterFin i seg.ack (InState i afterAck)) start.state := by
    rw [begins, Task.code, process, decoded]
    refine held.viewRx_bind fun later held => ?_
    rw [held.known.2]
    dsimp only
    rw [if_pos (bne_iff_ne.mpr inside)]
    exact processSegment_afterAck plain rfl packet.pool (held.weaken fun _ => And.left)
  have relies : ∀ (middle : System k admits) state busy,
      Interleaves (fun _ mem => FewOpens i mem) (System.initial k admits) middle →
      (outboundThread k).Advances middle.state middle.second state busy → FewOpens i state →
        (finProtocol i seg.ack).rely middle.state state := by
    intro middle state busy run advances _
    obtain ⟨reachable, few⟩ := Interleaves.few run
    have uses := (reachable.steps few).2 state busy advances
    exact ⟨uses.outStep.rx, fun taken => (reachable.finTaken few taken advances).2⟩
  obtain ⟨_, final⟩ := run.within (fun _ _ _ => trivial) relies meets proceeds
  rw [ends] at final
  have member : (last.state.rx.slots i).state ∈ afterAck := final.done.known
  simpa [afterAck] using member

end Runs

/-- The peer acknowledges the FIN of the small stack's connection, and the receiver begins to
process the segment. -/
def singleSlotFinAcked : System singleSlot anyTask where
  state := singleSlotReleased.state
  first := ⟨(.polling 3, some (.packet (peerPacket 8 2 ackFlag 1000 []))),
    process singleSlot (peerPacket 8 2 ackFlag 1000 [])⟩
  second := singleSlotReleased.second

/-- The same after the segment. -/
def singleSlotFinSettled : System singleSlot anyTask where
  state := ((process singleSlot (peerPacket 8 2 ackFlag 1000 [])).run
    singleSlotReleased.state).2
  first := ⟨(.polling 3, some (.packet (peerPacket 8 2 ackFlag 1000 []))), .done ()⟩
  second := singleSlotReleased.second

/-- A FIN is acknowledged while a call is under way. -/
theorem ack_of_fin_is_never_missed_of_closed :
    (singleSlotFinSettled.state.rx.slots 0).state = .finWait2 ∨
      (singleSlotFinSettled.state.rx.slots 0).state = .closed := by
  have few : FewOpens 0 singleSlotReleased.state := by
    unfold FewOpens
    decide +kernel
  have run : Interleaves (fun _ mem => FewOpens 0 mem) (System.initial singleSlot anyTask)
      singleSlotFinAcked :=
    (singleSlotReleased_reachable.few few).tail
      (.first (.starts ⟨_, rfl, rfl, trivial, rfl⟩) few)
  have traces : (process singleSlot (peerPacket 8 2 ackFlag 1000 [])).Traces
      (fun _ mem => opens 0 mem.rx.log < openLimit) singleSlotFinAcked.state := by
    decide +kernel
  have proceeds : Relation.ReflTransGen (MovesWithin fun _ mem => FewOpens 0 mem)
      singleSlotFinAcked singleSlotFinSettled := MovesWithin.finishFirst _ _ traces
  have decoded : decode singleSlot (peerPacket 8 2 ackFlag 1000 []).frame true =
      some (.segment (peerSegment 8 2 ackFlag 1000 [] (by decide))) := by decide
  have plain : Plain (peerSegment 8 2 ackFlag 1000 [] (by decide)) :=
    ⟨by decide, by decide, by decide⟩
  have finds : singleSlotFinAcked.state.rx.flows.find (FlowTable.key 0x0a000002 4000 80) =
      some 0 := by decide +kernel
  have live : (singleSlotFinAcked.state.rx.slots 0).state ∈ beforeSync := by decide +kernel
  have fin : HasFin (wire 0 singleSlotFinAcked.state.tx.log) := by
    unfold HasFin
    decide +kernel
  have all : 2 = (singleSlotFinAcked.state.view 0).reached := by decide +kernel
  exact ack_of_fin_is_never_missed run rfl decoded plain finds live fin all proceeds rfl

end DpdkWrapper.Tcp
