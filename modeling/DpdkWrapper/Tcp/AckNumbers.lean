import DpdkWrapper.Tcp.PureAcks

/-!
# ACK numbers

Every segment that is sent on a connection acknowledges what the application has got:
the bytes of its `data` events and the peer's FIN.  The number is kept twice, once for
each thread, and segments are built in five places.

`Counts` and `AckNumbersAgree` say that both copies are `irs + 1` plus what has been received,
the FIN included, and `process_segment` keeps this in every state.  A call reads the published
copy once and stamps all its segments with it.  Since the receiver's fields do not change during
an uninterrupted call, the stamp is right when the segment is handed over.
-/

namespace DpdkWrapper.Tcp

open Threads Wire

namespace Session

/-- How much of the peer's sequence space has been received: the bytes that the
application has got, and the FIN. -/
def received (session : Session) : Nat :=
  (delivered session.history).length + if finConsumed session.history then 1 else 0

/-- The number that acknowledges all that. -/
def ackNumber (session : Session) : BitVec 32 :=
  session.conn.irs + 1 + BitVec.ofNat 32 session.received

end Session

/-- The private copy of the number is right. -/
def Counts (session : Session) : Prop :=
  session.conn.rcvNxtLocal = session.ackNumber

/-- Both copies of the number are right. -/
structure AckNumbersAgree (session : Session) : Prop where
  counts : Counts session
  published : session.conn.rcvNxt = session.conn.rcvNxtLocal

/-! ## Segments -/

section

variable {session session' : Session} {seg : Segment}

/-- Only the two numbers and what has been received count. -/
theorem Counts.congr (counts : Counts session)
    (rcvNxt : session'.conn.rcvNxtLocal = session.conn.rcvNxtLocal)
    (irs : session'.conn.irs = session.conn.irs)
    (received : session'.received = session.received) : Counts session' := by
  rw [Counts, rcvNxt, Session.ackNumber, irs, received]
  exact counts

theorem SameInbox.received (same : SameInbox session session') :
    session'.received = session.received := by
  rw [Session.received, Session.received, same.delivered, same.fin]

theorem AckNumbersAgree.congr (tally : AckNumbersAgree session) (same : SameInbox session session')
    (irs : session'.conn.irs = session.conn.irs)
    (rcvNxt : session'.conn.rcvNxt = session.conn.rcvNxt) : AckNumbersAgree session' where
  counts := tally.counts.congr same.rcvNxt irs same.received
  published := by rw [rcvNxt, same.rcvNxt, tally.published]

/-- A segment that is not ahead but reaches beyond what has been received begins within
its own length before that point. -/
theorem skip_lt {seq rcvNxt : BitVec 32} {length : Nat} (small : length < 65536)
    (inOrder : seqGt seq rcvNxt = false)
    (further : seqGt (seq + BitVec.ofNat 32 length) rcvNxt = true) :
    Serial.dist seq rcvNxt < length := by
  rw [seqGt, seqLt, Serial.not_lt_iff] at inOrder
  rw [seqGt, seqLt, Serial.lt_iff_half_le] at further
  by_contra beyond
  have reach : Serial.dist seq (seq + BitVec.ofNat 32 length) = length :=
    Serial.dist_add_ofNat seq (by omega)
  have rest := Serial.dist_sub_dist (a := seq) (b := seq + BitVec.ofNat 32 length) (c := rcvNxt)
    (by omega)
  omega

section

variable (counts : Counts session) (open' : finConsumed session.history = false)
include counts open'

/-- In-order data is counted once: what has been received before is skipped. -/
theorem Counts.deliver (inOrder : seqGt seg.seq session.conn.rcvNxtLocal = false) :
    Counts (session.deliver seg) ∧ finConsumed (session.deliver seg).history = false := by
  unfold Session.deliver
  split
  · rename_i further
    have length : seg.len = BitVec.ofNat 32 seg.payload.length := rfl
    rw [length] at further ⊢
    have skip := skip_lt seg.payload_lt inOrder further
    set skipped := Serial.dist seg.seq session.conn.rcvNxtLocal
    have start : session.ackNumber = seg.seq + BitVec.ofNat 32 skipped := by
      rw [Serial.add_dist]
      exact counts.symm
    constructor
    · have grown : (((session.push .data (seg.payload.drop
            (session.conn.rcvNxtLocal - seg.seq).toNat)).update
          fun c => { c with rcvNxtLocal := seg.seq + BitVec.ofNat 32 seg.payload.length })).received
            =
          session.received + (seg.payload.length - skipped) := by
        simp [Session.received, Session.update, Session.push, Session.note, Session.makeEvent,
          RxEntry.data, open', skipped, Serial.dist]
      rw [Counts, Session.ackNumber, grown]
      calc
        seg.seq + BitVec.ofNat 32 seg.payload.length =
            seg.seq + BitVec.ofNat 32 skipped +
              BitVec.ofNat 32 (seg.payload.length - skipped) := by
          rw [BitVec.add_assoc, ← BitVec.ofNat_add, Nat.add_sub_cancel' (Nat.le_of_lt skip)]
        _ = session.conn.irs + 1 + BitVec.ofNat 32
              (session.received + (seg.payload.length - skipped)) := by
          rw [← start, Session.ackNumber, BitVec.add_assoc, ← BitVec.ofNat_add]
    · simp [Session.update, Session.push, Session.note, open']
  · exact ⟨counts, open'⟩

theorem Counts.takeFin : Counts session.takeFin := by
  have grown : session.takeFin.received = session.received + 1 := by
    simp [Session.received, Session.takeFin, Session.update, Session.note, RxEntry.data, open']
  rw [Counts, Session.ackNumber, grown, BitVec.ofNat_add, ← BitVec.add_assoc]
  exact congrArg (· + 1) counts

theorem Counts.consumeFin : Counts session.consumeFin := by
  have taken := counts.takeFin open'
  unfold Session.consumeFin
  split
  · refine taken.congr rfl rfl ?_
    simp [Session.received, Session.push, Session.note, Session.makeEvent, RxEntry.data,
      Session.setState, Session.update]
  · exact taken
  · exact taken.congr rfl rfl (session.takeFin.terminate_sameInbox (Or.inl rfl)).received
  · exact taken

end

/-- `process_data` keeps both copies of the number right, whatever the segment carries. -/
theorem AckNumbersAgree.processData (tally : AckNumbersAgree session)
    (open' : session.conn.state.canReceive = true → finConsumed session.history = false) :
    AckNumbersAgree (session.processData seg) := by
  unfold Session.processData
  split
  · exact tally
  · rename_i receives
    split
    · exact tally
    · split
      · exact tally
      · rename_i inOrder
        obtain ⟨delivered, still⟩ := tally.counts.deliver
          (open' (by simpa using receives)) (Bool.eq_false_iff.mpr inOrder)
        unfold Session.accept
        dsimp only
        split
        · exact ⟨delivered.consumeFin still, rfl⟩
        · exact ⟨delivered, rfl⟩

/-! ### What does not publish a number -/

theorem ControlMove.rcvNxt (move : ControlMove seg session session') :
    session'.conn.rcvNxt = session.conn.rcvNxt := by
  cases move with
  | ack =>
      obtain ⟨una, wnd, wl1, wl2, same⟩ := recordAck_eq seg session.conn
      have recorded : (session.record seg).conn.rcvNxt = session.conn.rcvNxt := by
        simp only [Session.record, Session.update, same]
        split <;> rfl
      rw [← recorded]
      unfold Session.finishAck
      split
      · split <;> rfl
      · rfl
  | _ => rfl

theorem StateConsistent.canReceive (standing : StateConsistent session)
    (receives : session.conn.state.canReceive = true) : finConsumed session.history = false := by
  have stands := standing.stands
  cases state : session.conn.state <;> rw [state] at stands receives
  case established => exact stands.2.1
  case finWait1 | finWait2 => exact stands.2.2.1
  all_goals cases receives

/-- The step lemma: both copies of the number stay right under any segment. -/
theorem AckNumbersAgree.processSegment (tally : AckNumbersAgree session)
    (standing : StateConsistent session) (k : TcpStack) :
    AckNumbersAgree (session.processSegment k seg) := by
  obtain ⟨later, moves, same⟩ := session.processSegment_moves seg k
  obtain ⟨tally, standing⟩ := Session.control_keeps
    (fun later => AckNumbersAgree later ∧ StateConsistent later) moves ⟨tally, standing⟩
    fun ⟨tally, standing⟩ move =>
      ⟨tally.congr move.sameInbox move.continues.irs move.rcvNxt, standing.control move⟩
  rcases same with same | ⟨_, same⟩ <;> rw [same]
  · exact tally
  · exact tally.processData standing.canReceive

end

/-! ## Runs -/

/-- What holds of the numbers of a slot, opened or not. -/
structure Numbered (session : Session) : Prop where
  counts : 0 < session.opens → Counts session
  published : session.conn.rcvNxt = session.conn.rcvNxtLocal

section

variable {k : TcpStack} {session session' : Session} {action : Action}

/-- The numbers are kept by every task and call, as far as the session sees it. -/
theorem Numbered.step (numbered : Numbered session) (steady : SessionInvariant session)
    (step : SessionStep k session action session') : Numbered session' := by
  cases step with
  | idle => exact numbered
  | @opened packet seg peerMss =>
      refine ⟨fun _ => ?_, rfl⟩
      change seg.seq + 1 = seg.seq + 1 + BitVec.ofNat 32 0
      exact (BitVec.add_zero _).symm
  | @segment packet seg decoded named live =>
      have opened : 0 < session.opens := by
        rw [Nat.pos_iff_ne_zero]
        exact fun never => live (steady.unopened never)
      have tally : AckNumbersAgree (session.processSegment k seg) :=
        AckNumbersAgree.processSegment ⟨numbered.counts opened, numbered.published⟩
          steady.standing k
      exact ⟨fun _ => tally.counts, tally.published⟩
  | freed => exact ⟨numbered.counts, numbered.published⟩
  | call opened step =>
      have counts := numbered.counts opened
      cases step <;> exact ⟨fun _ => counts, numbered.published⟩
  | stray out sends never => exact ⟨numbered.counts, numbered.published⟩

/-- The run lemma: every slot of every reachable state has the right numbers. -/
theorem Numbered.reachable {state : State} (reachable : Reachable k state) (i : Nat) :
    Numbered (state.memory.session i) := by
  have kept := Run.session i (fun session => SessionInvariant session ∧ Numbered session) reachable
    (Regular.initial k) ⟨.of_free rfl, ⟨fun opened => absurd opened (Nat.lt_irrefl 0), rfl⟩⟩
    (fun _ _ _ _ both step => ⟨both.1.step step, both.2.step both.1 step⟩)
  exact kept.2.2

/-- As long as a slot holds the same connection, what it has received only grows. -/
theorem SessionStep.received (step : SessionStep k session action session')
    (same : session'.opens = session.opens) :
    session'.conn.irs = session.conn.irs ∧ session.received ≤ session'.received := by
  constructor
  · cases step with
    | opened => exact absurd same (Nat.succ_ne_self _)
    | segment => exact (session.processSegment_continues _ k).irs
    | call _ step => cases step <;> rfl
    | _ => rfl
  · obtain ⟨added, grown⟩ := step.history same
    rw [Session.received, Session.received, ← grown]
    have bytes : (delivered session.history).length ≤
        (delivered (added ++ session.history)).length := by
      simp [delivered]
    have fin : finConsumed session.history = true →
        finConsumed (added ++ session.history) = true := by
      intro consumed
      rw [finConsumed, List.any_append]
      rw [finConsumed] at consumed
      rw [consumed, Bool.or_true]
    cases before : finConsumed session.history with
    | false =>
        exact Nat.le_trans bytes (Nat.le_add_right _ _)
    | true =>
        rw [fin before]
        exact Nat.add_le_add_right bytes 1

/-- As long as a slot is not reopened, what it has received never shrinks. -/
theorem Run.received {ok : State → Action → Prop} {start state : State} (i : Nat)
    (run : Run k ok start state) (reachable : Reachable k start)
    (same : (state.memory.session i).opens = (start.memory.session i).opens) :
    (state.memory.session i).conn.irs = (start.memory.session i).conn.irs ∧
      (start.memory.session i).received ≤ (state.memory.session i).received := by
  have kept := run.session i (fun session => (start.memory.session i).opens ≤ session.opens ∧
      (session.opens = (start.memory.session i).opens →
        session.conn.irs = (start.memory.session i).conn.irs ∧
          (start.memory.session i).received ≤ session.received))
    reachable.regular ⟨Nat.le_refl _, fun _ => ⟨rfl, Nat.le_refl _⟩⟩ (by
      rintro state action session' _ ⟨later, before⟩ step
      have grows := step.opens_le
      refine ⟨Nat.le_trans later grows, ?_⟩
      intro sameNow
      obtain ⟨irs, received⟩ := step.received (by omega)
      obtain ⟨irsBefore, receivedBefore⟩ := before (by omega)
      exact ⟨irs.trans irsBefore, Nat.le_trans receivedBefore received⟩)
  exact kept.2.2 same

end

/-! ## Calls -/

def TxEntry.isSent : TxEntry → Bool
  | .sent _ _ => true
  | _ => false

/-- Every segment that is handed over has this slot, address and ACK number. -/
structure Stamped (slot : Nat) (addr : SegmentAddr) (ack : BitVec 32) (mem mem' : Memory) :
    Prop where
  rx : mem'.rx = mem.rx
  log : ∃ entries, mem'.tx.log = entries ++ mem.tx.log ∧
    ∀ owner segment, .sent owner segment ∈ entries →
      owner = slot ∧ segment.addr = addr ∧ segment.ack = ack

namespace Stamped

variable {slot : Nat} {addr : SegmentAddr} {ack : BitVec 32} {first second third : Memory}

theorem refl (mem : Memory) : Stamped slot addr ack mem mem :=
  ⟨rfl, [], rfl, by simp⟩

/-- Calls compose: a segment that is handed over stays as it was stamped. -/
theorem trans (left : Stamped slot addr ack first second)
    (right : Stamped slot addr ack second third) : Stamped slot addr ack first third := by
  obtain ⟨sameLeft, older, olderLog, olderStamps⟩ := left
  obtain ⟨sameRight, newer, newerLog, newerStamps⟩ := right
  refine ⟨sameRight.trans sameLeft, newer ++ older, ?_, ?_⟩
  · rw [newerLog, olderLog, List.append_assoc]
  · intro owner segment member
    rcases List.mem_append.mp member with new | old
    · exact newerStamps owner segment new
    · exact olderStamps owner segment old

theorem note (mem : Memory) {entry : TxEntry} (unsent : entry.isSent = false) :
    Stamped slot addr ack mem ⟨mem.rx, mem.tx.note entry⟩ := by
  refine ⟨rfl, [entry], rfl, ?_⟩
  intro owner segment member
  rw [← List.mem_singleton.mp member] at unsent
  cases unsent

theorem transmit (mem : Memory) {segments : List TxSegment}
    (stamps : ∀ segment ∈ segments, segment.addr = addr ∧ segment.ack = ack) :
    Stamped slot addr ack mem ⟨mem.rx,
      { mem.tx with log := (segments.map (.sent slot)).reverse ++ mem.tx.log }⟩ := by
  refine ⟨rfl, _, rfl, ?_⟩
  intro owner segment member
  obtain ⟨other, inside, same⟩ := List.mem_map.mp (List.mem_reverse.mp member)
  cases same
  exact ⟨rfl, stamps segment inside⟩

end Stamped

section

variable (k : TcpStack) (conn : ConnId) {slot : Nat} {addr : SegmentAddr} {ack : BitVec 32}

theorem returning_stamped {α : Type} {entry : TxEntry}
    (unsent : entry.isSent = false) (value : α) :
    (returning entry value).Always (Stamped slot addr ack) :=
  Program.Always.bind (.modify fun mem => .note mem unsent) fun _ => trivial

theorem lookup_stamped : (lookup k conn).Always (Stamped slot addr ack) := by
  refine .bind ?_ fun _ => returning_stamped rfl _
  refine .ite trivial (.bind (.read .refl _) fun _ => ?_)
  refine .ite trivial (.bind (.read .refl _) fun _ => ?_)
  exact .bind (.read .refl _) fun _ => trivial

theorem sendable_stamped : (sendable k conn).Always (Stamped slot addr ack) := by
  refine (lookup_stamped k conn).bind fun _ => .ite ?_ (returning_stamped rfl _)
  refine .bind ?_ fun _ => returning_stamped rfl _
  refine .bind (.read .refl _) fun _ => .ite trivial ?_
  exact .bind (.read .refl _) fun _ => trivial

/-- Every segment of a burst has the address and the ACK number of the plan. -/
theorem buildBurst_stamps {plan : SendPlan} (pool : Nat → Bool) (room n off : Nat) :
    ∀ entry ∈ buildBurst k plan pool room n off,
      entry.1.addr = plan.addr ∧ entry.1.ack = plan.ack := by
  induction room generalizing n off with
  | zero => exact fun _ member => absurd member List.not_mem_nil
  | succ room ih =>
      rw [buildBurst]
      split
      · dsimp only
        split
        · exact fun _ member => absurd member List.not_mem_nil
        · rename_i segment built
          intro entry member
          rcases List.mem_cons.mp member with rfl | later
          · rw [buildSegment_eq_some built]
            exact ⟨rfl, rfl⟩
          · exact ih _ _ entry later
      · exact fun _ member => absurd member List.not_mem_nil

/-- `send` hands over only segments of its plan, in whichever bursts. -/
theorem sendLoop_stamped (plan : SendPlan) (env : SendEnv) (fuel burst done : Nat) :
    (sendLoop k plan env fuel burst done).Always (Stamped plan.slot plan.addr plan.ack) := by
  induction fuel generalizing burst done with
  | zero => exact returning_stamped rfl _
  | succ fuel ih =>
      have stored : ∀ off, (storeSndNxt plan.slot (plan.base + BitVec.ofNat 32 off)).Always
          (Stamped plan.slot plan.addr plan.ack) :=
        fun off => .modify fun _ => ⟨rfl, [], rfl, by simp⟩
      refine .ite (.ite trivial ?_) trivial
      refine (stored _).bind fun _ => .bind (.modify fun mem => ?_)
        fun _ => ?_
      · refine .transmit mem fun segment member => ?_
        obtain ⟨entry, inside, rfl⟩ := List.mem_map.mp member
        exact buildBurst_stamps k _ _ _ _ entry (List.mem_of_mem_take inside)
      · refine .ite ?_ (.ite trivial (ih _ _))
        exact (stored _).bind fun _ => trivial

/-- What the segments of an uninterrupted call on a slot have to carry. -/
def Stamps (mem mem' : Memory) : Prop :=
  Stamped conn.slot (replyAddr k (mem.rx.slots conn.slot)) (mem.rx.slots conn.slot).rcvNxt
    mem mem'

variable {k conn}

theorem Stamps.of_always {α : Type} {program : Code α} {mem : Memory}
    (always : ∀ addr ack, program.Always (Stamped conn.slot addr ack)) :
    Stamps k conn mem (program.run mem).2 :=
  (always _ _).run .refl (fun _ _ _ => .trans) mem

/-- The receiver's fields are the same all through a call, so the stamps of its parts agree. -/
theorem Stamps.bind {α β : Type} {program : Code α} {rest : α → Code β} {mem : Memory}
    (first : Stamps k conn mem (program.run mem).2)
    (second : ∀ value middle, middle.rx = mem.rx →
      Stamps k conn middle ((rest value).run middle).2) :
    Stamps k conn mem ((program >>= rest).run mem).2 := by
  rw [Program.run_bind']
  have later := second (program.run mem).1 (program.run mem).2 first.rx
  rw [Stamps, first.rx] at later
  exact first.trans later

variable (k conn)

theorem sendOnConnection_stamps (bytes : List Byte) (env : SendEnv) (mem : Memory) :
    Stamps k conn mem ((sendOnConnection k conn bytes env).run mem).2 := by
  rw [sendOnConnection, run_loadSndNxt_bind, run_viewRx_bind]
  dsimp only
  split
  · exact .refl mem
  · rw [run_viewRx_bind, run_viewRx_bind]
    generalize planned : SendPlan.mk conn.slot _ _ _ _ _ _ = plan
    have stamped := fun fuel => (sendLoop_stamped k plan env fuel 0 0).run .refl
      (fun _ _ _ => .trans) mem
    rw [← planned] at stamped ⊢
    exact stamped _

/-- `send` stamps its segments with what the receiver has published. -/
theorem send_stamps (bytes : List Byte) (env : SendEnv) (mem : Memory) :
    Stamps k conn mem ((send k conn bytes env).run mem).2 := by
  have returns : ∀ (count : Nat) (mem : Memory), Stamps k conn mem
      ((returning (.sendReturned conn bytes count) count).run mem).2 :=
    fun _ _ => .of_always fun _ _ => returning_stamped rfl _
  rw [send]
  split
  · exact returns 0 mem
  · refine .bind (.of_always fun _ _ => sendable_stamped k conn) fun ready middle _ => ?_
    split
    · exact returns 0 middle
    · refine .bind (.of_always fun _ _ => lookup_stamped k conn) fun found later _ => ?_
      split
      · exact .of_always fun _ _ => returning_stamped rfl _
      · exact .bind (sendOnConnection_stamps k conn bytes env later) fun count final _ =>
          returns count final

/-- The retry loop of `close`, with a FIN that an earlier attempt has built or without
one. -/
theorem finLoop_stamps (seq : BitVec 32) (env : CloseEnv) (mem : Memory) (retries : Nat) :
    ∀ (attempt : Nat) (fin : Option TxSegment),
      (∀ segment ∈ fin, segment.addr = replyAddr k (mem.rx.slots conn.slot) ∧
        segment.ack = (mem.rx.slots conn.slot).rcvNxt) →
      Stamps k conn mem ((finLoop k conn (replyAddr k (mem.rx.slots conn.slot)) seq env
        retries attempt fin).run mem).2 := by
  induction retries with
  | zero => exact fun _ _ _ => .refl mem
  | succ retries ih =>
      have attempted : ∀ attempt segment,
          segment.addr = replyAddr k (mem.rx.slots conn.slot) ∧
            segment.ack = (mem.rx.slots conn.slot).rcvNxt →
          Stamps k conn mem ((if env.takes attempt then transmit conn.slot [segment]
            else finLoop k conn (replyAddr k (mem.rx.slots conn.slot)) seq env retries
              (attempt + 1) (some segment)).run mem).2 := by
        intro attempt segment stamps
        split
        · exact .transmit mem (by simpa using stamps)
        · exact ih (attempt + 1) (some segment) (by simpa using stamps)
      intro attempt fin stamps
      cases fin with
      | some segment => exact attempted attempt segment (stamps segment rfl)
      | none =>
          have run : (buildFin k conn (replyAddr k (mem.rx.slots conn.slot)) seq
              (env.pool attempt) none).run mem = (buildSegment k.mbufRoom (env.pool attempt)
                (replyAddr k (mem.rx.slots conn.slot)) seq (mem.rx.slots conn.slot).rcvNxt
                (finFlag ||| ackFlag) k.receiveWindow [] 0, mem) := rfl
          rw [finLoop, Program.run_bind', run]
          cases built : buildSegment k.mbufRoom (env.pool attempt)
              (replyAddr k (mem.rx.slots conn.slot)) seq (mem.rx.slots conn.slot).rcvNxt
              (finFlag ||| ackFlag) k.receiveWindow [] 0 with
          | none => exact ih (attempt + 1) none (by simp)
          | some segment =>
              refine attempted attempt segment ?_
              rw [buildSegment_eq_some built]
              exact ⟨rfl, rfl⟩

theorem closeFin_stamps (out : BitVec 8) (env : CloseEnv) (mem : Memory) :
    Stamps k conn mem ((closeFin k conn out env).run mem).2 := by
  rw [closeFin]
  split
  · exact .refl mem
  · rw [run_viewRx_bind]
    split
    · exact .refl mem
    · rw [run_loadSndNxt_bind, run_storeSndNxt_bind, run_storeOutFlags_bind, Program.run_bind']
      have stamps := finLoop_stamps k conn (mem.tx.slots conn.slot).sndNxt env
        ⟨mem.rx, (mem.tx.updateSlot conn.slot fun fields =>
          { fields with sndNxt := (mem.tx.slots conn.slot).sndNxt + 1 }).updateSlot conn.slot
          fun fields => { fields with outFlags := out ||| outFinSent }⟩ closeRetries 0 none
        (by simp)
      exact ⟨stamps.rx, stamps.log⟩

/-- `close` stamps its FIN in the same way. -/
theorem close_stamps (env : CloseEnv) (mem : Memory) :
    Stamps k conn mem ((close k conn env).run mem).2 := by
  rw [close]
  refine .bind (.of_always fun _ _ => lookup_stamped k conn) fun found middle _ => ?_
  split
  · rw [run_loadOutFlags_bind]
    refine .bind (closeFin_stamps k conn _ env middle) fun out later _ => ?_
    refine .of_always fun _ _ => .bind (.modify fun mem => ?_)
      fun _ => returning_stamped rfl _
    exact ⟨rfl, [.released conn], rfl, by simp⟩
  · exact .of_always fun _ _ => returning_stamped rfl _

/-- The segments of a call carry the address of the connection in their slot and its
published number. -/
theorem Call.stamps (call : Call) (mem : Memory) :
    Stamps k call.conn mem ((call.code k).run mem).2 := by
  cases call with
  | sendable conn =>
      exact .of_always fun _ _ => (sendable_stamped k conn).bind fun _ => trivial
  | sendSpace conn =>
      refine .of_always fun _ _ => .bind ?_ fun _ => trivial
      refine (sendable_stamped k conn).bind fun _ => .ite (returning_stamped rfl _) ?_
      refine (lookup_stamped k conn).bind fun _ => .ite (returning_stamped rfl _) ?_
      exact .bind (.read .refl _) fun _ =>
        Program.Always.bind (.read .refl _) fun _ => returning_stamped rfl _
  | send conn bytes env =>
      refine .bind (send_stamps k conn bytes env mem) fun _ later _ => .refl later
  | close conn env => exact close_stamps k conn env mem

end

/-! ## Emission -/

/-- A segment goes to the peer of the connection in a slot. -/
structure Towards (c : TcpConnection) (segment : TxSegment) : Prop where
  dstIp : segment.addr.dstIp = c.peerIp
  dstPort : segment.addr.dstPort = c.peerPort
  srcPort : segment.addr.srcPort = c.localPort

/-- An action builds a segment for the connection in slot `i` and hands it on: `process`
answers a packet at once, `flush_acks` sends a pure ACK, or the data queue takes a
segment. -/
inductive Emission (k : TcpStack) (mem : Memory) (i : Nat) : Action → TxSegment → Prop
  | reply {packet : RxPacket} {segment : TxSegment}
      (queued : ((process k packet).run mem).2.rx.control =
        mem.rx.control ++ [.tcp segment])
      (inside : i < k.maxConnections)
      (inFlow : (((process k packet).run mem).2.rx.summary i).InFlow)
      (towards : Towards (((process k packet).run mem).2.rx.slots i) segment) :
      Emission k mem i (.task (.packet packet)) segment
  | pureAck {env : FlushEnv} {segment : TxSegment}
      (flushed : (i, segment) ∈ pureAcks k env.ackPool mem) :
      Emission k mem i (.task (.endPoll env)) segment
  | sent {call : Call} {segment : TxSegment} {entries : List TxEntry}
      (opened : 0 < (mem.session i).opens)
      (log : ((call.code k).run mem).2.tx.log = entries ++ mem.tx.log)
      (taken : .sent i segment ∈ entries) : Emission k mem i (.call call) segment

section

variable {k : TcpStack} {packet : RxPacket} {mem mem' : Memory} {i : Nat}
  {segment : TxSegment}

theorem queued_eq_append {control : List Packet} {reply : Option Packet} {answer : Packet}
    (grown : queued control reply = control ++ [answer]) : reply = some answer := by
  have unchanged : control ≠ control ++ [answer] := by simp
  unfold queued at grown
  split at grown
  · exact absurd grown unchanged
  · split at grown
    · exact absurd grown unchanged
    · simpa using grown

/-- A slot with a flow entry is found by the tuple of its segments. -/
theorem Accounting.eq_of_towards (accounts : Accounting k mem.rx) {j : Nat}
    (iInside : i < k.maxConnections) (jInside : j < k.maxConnections)
    (iInFlow : (mem.rx.summary i).InFlow) (jInFlow : (mem.rx.summary j).InFlow)
    (iTowards : Towards (mem.rx.slots i) segment)
    (jTowards : Towards (mem.rx.slots j) segment) : i = j := by
  obtain ⟨iFree, iAwaiting⟩ := (accounts.inFlow_iff iInside).mp iInFlow
  obtain ⟨jFree, jAwaiting⟩ := (accounts.inFlow_iff jInside).mp jInFlow
  exact accounts.partitioned.tuples i iInside j jInside iFree iAwaiting jFree jAwaiting
    (iTowards.dstIp.symm.trans jTowards.dstIp) (iTowards.dstPort.symm.trans jTowards.dstPort)
    (iTowards.srcPort.symm.trans jTowards.srcPort)

theorem rstFor_noAck {seg : Segment} {pool : Bool} (acks : seg.has ackFlag = true)
    (built : rstFor k seg pool = some segment) : segment.flags &&& ackFlag = 0 := by
  unfold rstFor at built
  dsimp only at built
  rw [if_pos acks] at built
  rw [buildSegment_eq_some built]
  exact (by decide : rstFlag &&& ackFlag = 0)

theorem rstFor_towards {seg : Segment} {pool : Bool} (built : rstFor k seg pool = some segment) :
    segment.addr.dstIp = seg.srcIp ∧ segment.addr.dstPort = seg.srcPort ∧
      segment.addr.srcPort = seg.dstPort := by
  unfold rstFor at built
  dsimp only at built
  split at built
  all_goals
    rw [buildSegment_eq_some built]
    exact ⟨rfl, rfl, rfl⟩

theorem synAck_stamps {c : TcpConnection} {pool : Bool} (built : synAck k c pool = some segment) :
    segment.addr = replyAddr k c ∧ segment.ack = c.rcvNxtLocal := by
  rw [buildSegment_eq_some built]
  exact ⟨rfl, rfl⟩

/-- What answers a segment of a connection that is not yet accepted, with an ACK number,
is the SYN-ACK once more. -/
theorem Session.reply_cases {session : Session} {seg : Segment} {pool : Bool}
    (built : session.reply k seg pool = some segment) (acks : segment.flags &&& ackFlag ≠ 0) :
    session.conn.state = .synReceived ∧ session.processSegment k seg = session ∧
      synAck k session.conn pool = some segment := by
  unfold Session.reply at built
  split at built
  · rename_i state
    split at built
    · cases built
    · rename_i rst
      split at built
      · rename_i syn
        split at built
        · refine ⟨state, ?_, built⟩
          rw [(session.processSegment_unaccepted seg k state).1, processHandshake, if_neg rst, syn]
          rfl
        · cases built
      · split at built
        · rename_i unexpected
          exact absurd (rstFor_noAck (Bool.and_eq_true_iff.mp unexpected).1 built) acks
        · cases built
  · cases built

/-- A SYN-ACK acknowledges the SYN and nothing else. -/
theorem synAck_honest (accounts : Accounting k mem.rx) {c : TcpConnection} {idx : Nat}
    {pool : Bool} (same : (mem.session idx).conn = c) (state : c.state = .synReceived)
    (idxInside : idx < k.maxConnections) (built : synAck k c pool = some segment)
    (inside : i < k.maxConnections) (inFlow : (mem.rx.summary i).InFlow)
    (towards : Towards (mem.rx.slots i) segment) :
    segment.addr = replyAddr k (mem.rx.slots i) ∧
      segment.ack = (mem.rx.slots i).rcvNxtLocal := by
  subst same
  obtain ⟨addr, ack⟩ := synAck_stamps built
  have idxInFlow : (mem.rx.summary idx).InFlow := by
    rw [session_state] at state
    apply accounts.inFlow_of_live idxInside
    · rw [state]
      rintro ⟨⟩
    · rw [state]
      rintro ⟨⟩
  obtain rfl : i = idx :=
    accounts.eq_of_towards inside idxInside inFlow idxInFlow towards
      ⟨by rw [addr]; rfl, by rw [addr]; rfl, by rw [addr]; rfl⟩
  exact ⟨addr, ack⟩

/-- What a packet is answered with on behalf of a connection acknowledges what its
private number says. -/
theorem Dispatch.honest (dispatch : Dispatch k packet mem mem')
    (accounts : Accounting k mem.rx) (accounts' : Accounting k mem'.rx)
    (queued : mem'.rx.control = mem.rx.control ++ [.tcp segment])
    (inside : i < k.maxConnections) (inFlow : (mem'.rx.summary i).InFlow)
    (towards : Towards (mem'.rx.slots i) segment) (acks : segment.flags &&& ackFlag ≠ 0) :
    segment.addr = replyAddr k (mem'.rx.slots i) ∧
      segment.ack = (mem'.rx.slots i).rcvNxtLocal := by
  have built : ∀ reply : Option TxSegment,
      mem'.rx.control = Tcp.queued mem.rx.control (reply.map .tcp) →
        reply = some segment := by
    intro reply control
    obtain ⟨found, same, isTcp⟩ :=
      Option.map_eq_some_iff.mp (queued_eq_append (control.symm.trans queued))
    cases isTcp
    exact same
  cases dispatch with
  | @other reply _ _ answers =>
      obtain ⟨frame, _, isTcp⟩ :=
        Option.map_eq_some_iff.mp (queued_eq_append (answers.control.symm.trans queued))
      cases isTcp
  | @refused seg _ _ unknown _ answers =>
      -- a refused segment has the tuple of no connection
      have refused := built _ answers.control
      unfold refusal at refused
      split at refused
      · cases refused
      · obtain ⟨dstIp, dstPort, srcPort⟩ := rstFor_towards refused
        rw [answers.slots] at towards
        have same : mem'.rx.summary i = mem.rx.summary i := by
          rw [Receiver.summary, answers.slots, Receiver.summary]
        rw [same] at inFlow
        exact absurd ⟨dstIp.symm.trans towards.dstIp, dstPort.symm.trans towards.dstPort,
          srcPort.symm.trans towards.srcPort⟩ (unknown i inside inFlow)
  | @opened seg idx rest peerMss _ _ _ free =>
      have listed : idx ∈ mem.rx.freeSlots := by
        rw [free]
        exact List.mem_cons_self
      have here := openSlot_sessions k idx seg peerMss packet.rand packet.pool mem idx
      rw [if_pos rfl] at here
      have replied := built _ (openSlot_serves k idx seg peerMss packet.rand packet.pool
        mem).control
      exact synAck_honest accounts' (congrArg Session.conn here) rfl
        ((accounts.partitioned.mem_freeSlots idx).mp listed).1 replied inside inFlow towards
  | @segment seg idx _ idxInside =>
      have replied := built _ (processSegment_serves k idx seg packet.pool mem).control
      obtain ⟨state, same, synAck⟩ := Session.reply_cases replied acks
      have here := (processSegment_turns idx seg mem k packet.pool).here.trans same
      exact synAck_honest accounts' (congrArg Session.conn here) state idxInside synAck inside
        inFlow towards

end

/-- In a reachable state the receiver's own number counts what has been received. -/
theorem Reachable.rcvNxtLocal_eq {k : TcpStack} {state : State} (reachable : Reachable k state)
    {i : Nat} (opened : 0 < (state.memory.session i).opens) :
    (state.memory.rx.slots i).rcvNxtLocal = (state.memory.session i).ackNumber :=
  (Numbered.reachable reachable i).counts opened

section

variable {k : TcpStack} {state : State} {i : Nat} {segment : TxSegment}

/-- Only packets change what is to be acknowledged. -/
theorem SessionStep.unreceived {session session' : Session} {action : Action}
    (step : SessionStep k session action session')
    (other : ∀ packet, action ≠ .task (.packet packet)) :
    replyAddr k session'.conn = replyAddr k session.conn ∧
      session'.ackNumber = session.ackNumber := by
  cases step with
  | opened => exact absurd rfl (other _)
  | segment => exact absurd rfl (other _)
  | call _ step => cases step <;> exact ⟨rfl, rfl⟩
  | _ => exact ⟨rfl, rfl⟩

/-- What is queued in answer to a packet acknowledges what has been received by then. -/
theorem Reachable.honest_reply (reachable : Reachable k state) {packet : RxPacket} {phase : Phase}
    (reachable' : Reachable k ⟨phase, ((process k packet).run state.memory).2⟩)
    (emission : Emission k state.memory i (.task (.packet packet)) segment)
    (acks : segment.flags &&& ackFlag ≠ 0) :
    let mem' := ((process k packet).run state.memory).2
    segment.addr = replyAddr k (mem'.rx.slots i) ∧
      segment.ack = (mem'.session i).ackNumber := by
  intro mem'
  cases emission with
  | reply queued inside inFlow towards =>
      have accounts := reachable.inOrder.accounts
      have accounts' := reachable'.inOrder.accounts
      obtain ⟨addr, ack⟩ := (process_dispatch accounts packet).honest accounts accounts' queued
        inside inFlow towards acks
      have live : (mem'.rx.slots i).state ≠ .free := accounts'.ne_free_of_inFlow inside inFlow
      exact ⟨addr, ack.trans (reachable'.rcvNxtLocal_eq (reachable'.opened live))⟩

/-- The pure ACKs at the end of a poll. -/
theorem Reachable.honest_pureAck (reachable : Reachable k state) {env : FlushEnv}
    (emission : Emission k state.memory i (.task (.endPoll env)) segment) :
    segment.addr = replyAddr k (state.memory.rx.slots i) ∧
      segment.ack = (state.memory.session i).ackNumber := by
  cases emission with
  | pureAck flushed =>
      obtain ⟨position, listed, built⟩ := mem_pureAcks.mp flushed
      have accepted := reachable.coalesced.owing.accepted i (List.mem_of_getElem? listed)
      have opened := reachable.opened (TcpState.accepted_iff.mp accepted).1
      unfold pureAck at built
      split at built
      · rw [buildSegment_eq_some built]
        exact ⟨rfl, reachable.rcvNxtLocal_eq opened⟩
      · cases built

/-- The segments of `send` and `close`. -/
theorem Reachable.honest_sent (reachable : Reachable k state) {call : Call}
    (emission : Emission k state.memory i (.call call) segment) :
    segment.addr = replyAddr k (state.memory.rx.slots i) ∧
      segment.ack = (state.memory.session i).ackNumber := by
  cases emission with
  | sent opened log taken =>
      obtain ⟨_, entries, sameLog, stamps⟩ := call.stamps k state.memory
      rw [log, List.append_cancel_right_eq] at sameLog
      rw [sameLog] at taken
      obtain ⟨rfl, addr, ack⟩ := stamps i segment taken
      have numbered := Numbered.reachable reachable call.conn.slot
      exact ⟨addr, ack.trans (numbered.published.trans (numbered.counts opened))⟩

end

/-- Acknowledgement honesty.  In every reachable state the published number is the private
one, in every slot.  Every segment with an ACK number that an action emits for a
connection goes to its peer and acknowledges exactly the bytes of its `data` events and
the peer's FIN, as they stand after the action.  What `flush_acks` appends to the control
packets are these pure ACKs.  As long as the slot holds the connection, what is
acknowledged does not move backwards. -/
theorem honest_acks {k : TcpStack} {state : State} (reachable : Reachable k state) :
    (∀ i, (state.memory.rx.slots i).rcvNxt = (state.memory.rx.slots i).rcvNxtLocal) ∧
      (∀ i action state' segment, Act k state action state' →
        Emission k state.memory i action segment → segment.flags &&& ackFlag ≠ 0 →
        segment.addr = replyAddr k (state'.memory.rx.slots i) ∧
          segment.ack = (state'.memory.session i).ackNumber) ∧
      (∀ count ackPool, state.phase = .polling count →
        ((flushAcks k ackPool).run state.memory).2.rx.control =
          state.memory.rx.control ++
            ((pureAcks k ackPool state.memory).map Prod.snd).map .tcp) ∧
      ∀ ok state' i, Run k ok state state' →
        (state'.memory.session i).opens = (state.memory.session i).opens →
        (state'.memory.session i).conn.irs = (state.memory.session i).conn.irs ∧
          (state.memory.session i).received ≤ (state'.memory.session i).received := by
  have coalesced := reachable.coalesced
  refine ⟨fun i => (Numbered.reachable reachable i).published, ?_, ?_,
    fun ok state' i run same => run.received i reachable same⟩
  · intro i action state' segment act emission acks
    have reachable' : Reachable k state' := reachable.step act trivial
    have step := act.session reachable.regular i
    cases act with
    | @task phase phase' mem task enabled =>
        cases task with
        | beginPoll => cases emission
        | packet packet => exact reachable.honest_reply reachable' emission acks
        | endPoll env =>
            obtain ⟨addr, ack⟩ := reachable.honest_pureAck emission
            obtain ⟨sameAddr, sameNumber⟩ := step.unreceived (fun _ => by rintro ⟨⟩)
            exact ⟨addr.trans sameAddr.symm, ack.trans sameNumber.symm⟩
    | @call phase mem call =>
        obtain ⟨addr, ack⟩ := reachable.honest_sent emission
        obtain ⟨sameAddr, sameNumber⟩ := step.unreceived (fun _ => by rintro ⟨⟩)
        exact ⟨addr.trans sameAddr.symm, ack.trans sameNumber.symm⟩
  · intro count ackPool polling
    obtain ⟨phase, mem⟩ := state
    subst polling
    rw [pureAcks_map_snd]
    exact (flushAcks_flushed coalesced.owing reachable.loaded.room).2.1

/-- The ACK of two bytes, in the poll that has received them. -/
theorem honest_acks_of_two_bytes :
    let mem := ((process singleSlot (peerPacket 8 1 ackFlag 1000 [104, 105])).run
      singleSlotAfterSyn.memory).2
    let env : FlushEnv := ⟨fun _ => true, 2⟩
    let ack : TxSegment := ⟨replyAddr singleSlot (mem.rx.slots 0), 1, 10, ackFlag, 65535, [], 0⟩
    (0, ack) ∈ pureAcks singleSlot env.ackPool mem ∧ (mem.session 0).received = 2 ∧
      ack.ack = (((endPoll singleSlot env).run mem).2.session 0).ackNumber := by
  intro mem env ack
  have reached : Reachable singleSlot ⟨.polling 2, mem⟩ :=
    (singleSlotPolling_reachable.step singleSlotAfterSyn_act trivial).step
      (.task (.packet (peerPacket 8 1 ackFlag 1000 [104, 105])) rfl) trivial
  have flushed : (0, ack) ∈ pureAcks singleSlot env.ackPool mem := by decide
  refine ⟨flushed, by decide, ?_⟩
  exact ((honest_acks reached).2.1 0 _ _ ack (.task (.endPoll env) rfl) (.pureAck flushed)
    (by decide)).2

end DpdkWrapper.Tcp
