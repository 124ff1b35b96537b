import DpdkWrapper.Tcp.RollBack
import DpdkWrapper.Tcp.WireStream

/-!
# Peers that acknowledge what was sent

`send` publishes `snd_nxt` before the burst and takes it back if the queue has taken less.  As
long as only ACKs of what the queue has taken are recorded, a roll-back never goes behind one,
and `process_ack` refuses no ACK of what the queue has taken unless it is about half the number
space old.

The invariant of the wire (what is published covers what was taken) holds with any peer, and that
of the send numbers as long as no roll-back goes behind a recorded ACK.  What honesty adds is that
the recorded ACK has been taken.  A roll-back goes to the end of what was taken, and so not behind
it.
-/

namespace DpdkWrapper.Tcp

open Threads Wire

/-- The number is at most the end of what the data queue has taken, and not so old that it
would compare as newer than `snd_nxt`. -/
def SlotView.Acknowledges (view : SlotView) (ack : BitVec 32) : Prop :=
  Serial.dist ack view.reached < 2 ^ 31 - 2 ^ 16

instance (view : SlotView) (ack : BitVec 32) : Decidable (view.Acknowledges ack) :=
  inferInstanceAs (Decidable (_ < _))

/-- If the step records an ACK on the connection in slot `i`, it is of what the data queue has
taken. -/
def Honest (i : Nat) (mem mem' : Memory) : Prop :=
  (mem.rx.slots i).state.accepted = true → (mem'.rx.slots i).state.accepted = true →
    (mem'.rx.slots i).sndUna = (mem.rx.slots i).sndUna ∨
      (mem.view i).Acknowledges (mem'.rx.slots i).sndUna

instance (i : Nat) : DecidableRel (Honest i) :=
  fun _ _ => inferInstanceAs (Decidable (_ → _ → _ ∨ _))

/-- The recorded ACK is not beyond what the data queue has taken. -/
def SlotView.Truthful (view : SlotView) : Prop :=
  view.conn.state.accepted = true →
    Serial.dist view.reached view.out.sndNxt ≤ Serial.dist view.conn.sndUna view.out.sndNxt

section Views

variable {terms : Terms} {i lag : Nat} {view view' : SlotView}

theorem SlotView.Streams.dist_eq (streams : view.Streams lag) (small : lag < 2 ^ 32) :
    Serial.dist view.reached view.out.sndNxt = lag := by
  rw [streams.sndNxt]
  exact Serial.dist_add_ofNat _ small

/-- The distances from an honest ACK add up. -/
theorem SlotView.Acknowledges.dist {ack : BitVec 32} (honest : view.Acknowledges ack)
    (small : Serial.dist view.reached view.out.sndNxt ≤ 65536) :
    Serial.dist ack view.out.sndNxt =
      Serial.dist ack view.reached + Serial.dist view.reached view.out.sndNxt := by
  apply Serial.dist_add_dist
  unfold SlotView.Acknowledges at honest
  omega

/-- The step lemma for one slot: what an honest peer acknowledges has been taken. -/
theorem SlotStep.truthful (step : SlotStep terms i view view') (stage : view.Stage)
    (covered : view.Covered fun _ => 2 ^ 31 - 1) (flowing : view.Flowing fun _ => 65536)
    (honest : view.conn.state.accepted = true → view'.conn.state.accepted = true →
      view'.conn.sndUna = view.conn.sndUna ∨ view.Acknowledges view'.conn.sndUna)
    (truthful : view.Truthful) : view'.Truthful := by
  intro after
  rcases step.continues_or_begins stage after with continues | begins
  · have accepted := continues.accepted
    have inside := truthful accepted
    have flight := (flowing accepted).unacknowledged
    rw [continues.reached, continues.out]
    rcases honest accepted after with same | acknowledges
    · rwa [same]
    · rw [acknowledges.dist (Nat.le_trans inside flight)]
      exact Nat.le_add_left _ _
  · -- a new connection has sent nothing, and the handshake has acknowledged the SYN
    have empty : view'.wire = [] := begins.wire.trans (covered.fresh begins.before begins.ready)
    rw [SlotView.reached, empty, begins.sndNxt, begins.una]
    simp

end Views

/-! ## Steps of calls -/

section Calls

variable {i : Nat} {caller : Option ConnId} {mem mem' : Memory}

/-- A store of `snd_nxt` at or beyond what the queue has taken does not go behind an ACK of
it. -/
theorem not_behind {una reached : BitVec 32} {lag lag' : Nat}
    (near : Serial.dist una reached ≤ 65536) (small : lag ≤ 65536) (small' : lag' < 2 ^ 31)
    (back : seqGt (reached + BitVec.ofNat 32 lag) (reached + BitVec.ofNat 32 lag') = true) :
    seqGt una (reached + BitVec.ofNat 32 lag') = false := by
  have less : lag' < lag := by
    by_contra more
    have ahead := Serial.not_lt_offsets reached (Nat.not_lt.mp more) (by omega)
    exact Bool.eq_false_iff.mp ahead back
  have whole : Serial.dist una (reached + BitVec.ofNat 32 lag') = _ :=
    Serial.dist_advance (by omega)
  rw [seqGt, seqLt, Serial.not_lt_iff, whole]
  omega

/-- The step lemma for calls: what is recorded has still been taken, and `snd_nxt` does not go
behind it. -/
theorem Uses.truthful (uses : Uses i caller mem mem') (covers : AlwaysCovered i mem)
    (covers' : AlwaysCovered i mem') (bounded : AlwaysBounds i mem)
    (truthful : (mem.view i).Truthful) :
    (mem'.view i).Truthful ∧ ¬Undercuts i mem mem' := by
  have sameRx := uses.outStep.rx
  have conn : (mem'.view i).conn = (mem.view i).conn := (uses.outStep.slot i).conn
  by_cases accepted : (mem.view i).conn.state.accepted = true
  swap
  · exact ⟨fun after => absurd (conn ▸ after) accepted, fun undercuts => accepted undercuts.1⟩
  obtain ⟨lag, small, streams, _⟩ := SlotView.Covered.covers covers accepted
  obtain ⟨lag', small', streams', _⟩ := SlotView.Covered.covers covers' (conn ▸ accepted)
  have taken := streams.dist_eq (Nat.lt_of_le_of_lt small (by decide))
  have taken' := streams'.dist_eq (Nat.lt_of_le_of_lt small' (by decide))
  have behind := truthful accepted
  have flight : Serial.dist (mem.view i).conn.sndUna (mem.view i).out.sndNxt ≤ 65536 :=
    (bounded accepted).unacknowledged
  have parts := Serial.dist_of_between behind
  rw [SlotView.Truthful, taken', conn]
  rcases uses.sends with sameWire | ⟨sameOut, segments, few, grown⟩
  · have reached : (mem'.view i).reached = (mem.view i).reached := by
      rw [SlotView.reached, conn, show (mem'.view i).wire = _ from sameWire]
      rfl
    have sndNxt := streams'.sndNxt
    rw [reached] at sndNxt
    constructor
    · intro _
      rw [sndNxt, Serial.dist_advance (by omega)]
      exact Nat.le_add_left _ _
    · rintro ⟨_, back, ahead⟩
      rw [show (mem.tx.slots i).sndNxt = _ from streams.sndNxt,
        show (mem'.tx.slots i).sndNxt = _ from sndNxt] at back
      rw [show (mem'.tx.slots i).sndNxt = _ from sndNxt] at ahead
      have near : Serial.dist (mem.view i).conn.sndUna (mem.view i).reached ≤ 65536 := by omega
      exact Bool.eq_false_iff.mp (not_behind near (by omega) (by omega) back) ahead
  · have further : (mem'.view i).reached =
        (mem.view i).reached + BitVec.ofNat 32 (spans segments) := by
      rw [SlotView.reached, conn, show (mem'.view i).wire = _ from grown, spans_append,
        spans_reverse, Nat.add_comm, BitVec.ofNat_add, ← BitVec.add_assoc]
      rfl
    have out : (mem'.view i).out = (mem.view i).out := sameOut
    have sndNxt := streams'.sndNxt
    rw [out, further, BitVec.add_assoc, ← BitVec.ofNat_add] at sndNxt
    have whole : Serial.dist (mem.view i).reached (mem.view i).out.sndNxt =
        spans segments + lag' := by
      rw [sndNxt, Serial.dist_add_ofNat _ (by omega)]
    constructor
    · intro _
      rw [out]
      omega
    · rintro ⟨_, back, _⟩
      rw [sameOut, seqGt, seqLt, Serial.lt_irrefl] at back
      cases back

end Calls

/-! ## All interleavings -/

/-- The slot has been opened fewer than 2^32 - 1 times, and the step records no ACK of what
the data queue has not taken. -/
def Faithful (i : Nat) (mem mem' : Memory) : Prop :=
  FewOpens i mem' ∧ Honest i mem mem'

section Runs

variable {k : TcpStack} {admits : Memory → Task → Prop} {system : System k admits} {i : Nat}

/-- The run lemma: with an honest peer no roll-back goes behind a recorded ACK, and every
recorded ACK is of what has been taken. -/
theorem System.Runs.truthful (run : System.Runs (Faithful i) system) :
    System.Runs (NoRollBack i) system ∧ (system.state.view i).Truthful := by
  have anyway : ∀ {system : System k admits}, System.Runs (Faithful i) system →
      system.Reachable := fun run => run.permitting fun _ _ _ _ _ => trivial
  induction run with
  | refl => exact ⟨.refl, by rintro ⟨⟩⟩
  | tail run step ih =>
      obtain ⟨fair, truthful⟩ := ih
      obtain ⟨⟨few, honest⟩, moves⟩ := System.Runs.moves (fun _ _ => And.left) run step
      have covers' := ((anyway (run.tail step)).covers few).2
      rcases moves with inbound | ⟨_, uses⟩
      · obtain ⟨ids, covers⟩ := (anyway run).covers (inbound.few few)
        refine ⟨fair.tail (step.permitting fun _ => ⟨few, inbound.not_undercuts⟩), ?_⟩
        exact (inbound.slot i).truthful ids.stage covers fair.bounded honest truthful
      · have covers := ((anyway run).covers (by rwa [FewOpens, ← uses.outStep.rx])).2
        obtain ⟨still, keeps⟩ := uses.truthful covers covers' fair.bounded truthful
        exact ⟨fair.tail (step.permitting fun _ => ⟨few, keeps⟩), still⟩

/-- If only ACKs of what the data queue has taken are recorded, then the recorded ACK, the end
of what the queue has taken and `snd_nxt` are in this order and at most a window and a FIN
apart, and `process_ack` records every ACK of what the queue has taken. -/
theorem honest_acks_are_not_refused
    (run : Interleaves (Faithful i) (System.initial k admits) system)
    (accepted : (system.state.rx.slots i).state.accepted = true) :
    let c := system.state.rx.slots i
    let sndNxt := (system.state.tx.slots i).sndNxt
    let reached := (system.state.view i).reached
    Serial.dist c.sndUna reached + Serial.dist reached sndNxt = Serial.dist c.sndUna sndNxt ∧
      Serial.dist c.sndUna sndNxt ≤ 65536 ∧
      ∀ seg : Segment, (system.state.view i).Acknowledges seg.ack →
        ((checkAck i seg).run system.state).1 = .recorded sndNxt (ackChanges seg c) := by
  obtain ⟨fair, truthful⟩ := System.Runs.truthful run
  have flight : Serial.dist (system.state.rx.slots i).sndUna (system.state.tx.slots i).sndNxt ≤
      65536 := (fair.bounded accepted).unacknowledged
  have behind := truthful accepted
  refine ⟨Serial.dist_of_between behind, flight, fun seg honest => ?_⟩
  have ordered : seqGt seg.ack (system.state.tx.slots i).sndNxt = false := by
    have lag := Nat.le_trans behind flight
    have whole : Serial.dist seg.ack (system.state.tx.slots i).sndNxt = _ := honest.dist lag
    rw [seqGt, seqLt, Serial.not_lt_iff, whole]
    unfold SlotView.Acknowledges at honest
    omega
  simp [checkAck, Program.atomically, Program.run, ordered]

/-! ## A run with an honest peer -/

instance (i : Nat) : DecidableRel (Faithful i) :=
  fun _ mem' => inferInstanceAs (Decidable (opens i mem'.rx.log < openLimit ∧ _))

end Runs

/-- The small stack after a `send` of two bytes and their ACK. -/
def singleSlotAcknowledged : System singleSlot anyTask where
  state := ((process singleSlot (peerPacket 8 3 ackFlag 1000 [])).run
    ((Call.code singleSlot (.send ⟨0, 1⟩ [1, 2] .unfailing)).run singleSlotAccepted.memory).2).2
  first := ⟨(.polling 3, some (.packet (peerPacket 8 3 ackFlag 1000 []))), .done ()⟩
  second := ⟨some (.send ⟨0, 1⟩ [1, 2] .unfailing), .done ()⟩

/-- All its steps are those of an honest peer. -/
theorem singleSlotAcknowledged_faithful :
    Interleaves (Faithful 0) (System.initial singleSlot anyTask) singleSlotAcknowledged := by
  have start : Interleaves (Faithful 0) (System.initial singleSlot anyTask)
      (System.initial singleSlot anyTask) := .refl
  have polling := System.Runs.task start .beginPoll rfl trivial (by decide +kernel)
    (by decide +kernel)
  have pending := System.Runs.task polling (.packet (peerPacket 7 0 synFlag 1000 [])) rfl trivial
    (by decide +kernel) (by decide +kernel)
  have serving := System.Runs.task pending (.packet (peerPacket 8 1 ackFlag 1000 [])) rfl trivial
    (by decide +kernel) (by decide +kernel)
  have sent := System.Runs.call serving (.send ⟨0, 1⟩ [1, 2] .unfailing)
    singleSlotServing_accepted (by decide +kernel) (by decide +kernel)
  exact System.Runs.task sent (.packet (peerPacket 8 3 ackFlag 1000 [])) rfl trivial
    (by decide +kernel) (by decide +kernel)

/-- A late ACK of one of the two bytes. -/
theorem honest_acks_are_not_refused_of_two_bytes :
    (singleSlotAcknowledged.state.rx.slots 0).sndUna = 3 ∧
      ∀ seg : Segment, seg.ack = 2 →
        ((checkAck 0 seg).run singleSlotAcknowledged.state).1 =
          .recorded (singleSlotAcknowledged.state.tx.slots 0).sndNxt
            (ackChanges seg (singleSlotAcknowledged.state.rx.slots 0)) := by
  refine ⟨by decide +kernel, fun seg same => ?_⟩
  refine (honest_acks_are_not_refused singleSlotAcknowledged_faithful
    (by decide +kernel)).2.2 seg ?_
  rw [same]
  decide +kernel

end DpdkWrapper.Tcp
