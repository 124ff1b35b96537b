import DpdkWrapper.Tcp.Events

/-!
# The lists of a poll

A poll collects events, control packets, connections owed an ACK and connections to
finalize.  Here is what one segment adds to each of them, as a function of the session
it is for: `owes` says whether it queues an ACK, `cancels` whether it takes back one,
and `reply` which control segment it queues at once.

`PollEffect` adds up what the parts of `process_segment` do, and `Serves` is the sum for a whole
segment.  It is stated as an equation for the control queue and the list of ACKs, so that
capacity, coalescing and the answers can all be read off it.
-/

namespace DpdkWrapper.Tcp

open Threads Wire

/-- The segment takes up sequence space. -/
def occupies (seg : Segment) : Bool :=
  seg.len != 0 || seg.has finFlag

theorem occupies_eq (seg : Segment) : occupies seg = !(seg.len == 0 && !seg.has finFlag) := by
  rw [occupies, Bool.not_and, Bool.not_not]
  rfl

namespace Session

/-- `process_segment` queues an ACK. -/
def owes (session : Session) (seg : Segment) : Bool :=
  let synced := session.syncOutFlags
  match synced.conn.state with
  | .free | .closed => false
  | .synReceived =>
      !seg.has rstFlag && !seg.has synFlag && seg.has ackFlag &&
        seg.ack == session.conn.iss + 1 && occupies seg
  | _ =>
      !seg.has rstFlag && (seg.has synFlag || (seg.has ackFlag &&
        (seqGt seg.ack session.out.sndNxt || ((synced.processAck seg).1 && occupies seg))))

/-- `process_segment` takes an ACK back, with a reset. -/
def cancels (k : TcpStack) (session : Session) (seg : Segment) : Bool :=
  match session.conn.state with
  | .free | .closed => false
  | _ => seg.has rstFlag && rstAcceptable k session.conn seg

/-- The control segment that `process_segment` queues. -/
def reply (k : TcpStack) (session : Session) (seg : Segment) (pool : Bool) : Option TxSegment :=
  match session.conn.state with
  | .synReceived =>
      if seg.has rstFlag then
        none
      else if seg.has synFlag then
        if !seg.has ackFlag && seg.seq == session.conn.irs then
          synAck k session.conn pool
        else
          none
      else if seg.has ackFlag && seg.ack != session.conn.iss + 1 then
        rstFor k seg pool
      else
        none
  | _ => none

end Session

/-! ## Work on one connection -/

/-- At most `count` events were pushed, and logged; what they carry ends a payload. -/
def Pushes (payload : List Byte) (count : Nat) (rx rx' : Receiver) : Prop :=
  ∃ added, rx'.log = added ++ rx.log ∧ rx'.events = rx.events ++ events added ∧
    (events added).length ≤ count ∧ ∀ event ∈ events added, event.data <:+ payload

namespace Pushes

variable {payload : List Byte} {count more : Nat} {rx rx' rx'' : Receiver}

/-- Entries that are no events. -/
theorem silent {added : List RxEntry} (log : rx'.log = added ++ rx.log)
    (none : events added = []) (same : rx'.events = rx.events) : Pushes payload 0 rx rx' := by
  refine ⟨added, log, ?_, ?_, ?_⟩
  · rw [same, none, List.append_nil]
  · rw [none]
    exact Nat.le_refl 0
  · rw [none]
    exact fun _ member => absurd member List.not_mem_nil

theorem of_same (log : rx'.log = rx.log) (same : rx'.events = rx.events) :
    Pushes payload 0 rx rx' :=
  silent (show rx'.log = [] ++ rx.log from log) rfl same

/-- Events add up. -/
theorem trans (first : Pushes payload count rx rx') (second : Pushes payload more rx' rx'') :
    Pushes payload (count + more) rx rx'' := by
  obtain ⟨added, log, sameEvents, few, carried⟩ := first
  obtain ⟨further, logAgain, eventsAgain, fewMore, carriedToo⟩ := second
  refine ⟨further ++ added, by rw [logAgain, log, List.append_assoc], ?_, ?_, ?_⟩
  · rw [eventsAgain, sameEvents, events_append, List.append_assoc]
  · rw [events_append, List.length_append]
    exact Nat.add_le_add few fewMore
  · rw [events_append]
    intro event member
    rcases List.mem_append.mp member with old | new
    · exact carried event old
    · exact carriedToo event new

theorem mono (pushes : Pushes payload count rx rx') (fewer : count ≤ more) :
    Pushes payload more rx rx' := by
  obtain ⟨added, log, sameEvents, few, carried⟩ := pushes
  exact ⟨added, log, sameEvents, Nat.le_trans few fewer, carried⟩

end Pushes

/-- What happens on behalf of one connection, without a control packet and without a
reset: at most `ends` entries to finalize and `tells` events. -/
structure PollEffect (idx : Nat) (payload : List Byte) (owes : Bool) (ends tells : Nat)
    (rx rx' : Receiver) : Prop where
  ackList : rx'.ackList =
    if owes && !(rx.slots idx).ackPending then rx.ackList ++ [idx] else rx.ackList
  pending : (rx'.slots idx).ackPending = ((rx.slots idx).ackPending || owes)
  others : ∀ i, i ≠ idx → (rx'.slots i).ackPending = (rx.slots i).ackPending
  control : rx'.control = rx.control
  finalizeList : ∃ ended, rx'.finalizeList = rx.finalizeList ++ ended ∧ ended.length ≤ ends
  told : Pushes payload tells rx rx'

namespace PollEffect

variable {idx ends tells ends' tells' : Nat} {payload : List Byte} {owes owes' : Bool}
  {rx rx' rx'' : Receiver}

/-- A change of one slot that leaves `ack_pending` alone. -/
theorem updateSlot {change : TcpConnection → TcpConnection}
    (same : ∀ c : TcpConnection, (change c).ackPending = c.ackPending) :
    PollEffect idx payload false 0 0 rx (rx.updateSlot idx change) where
  ackList := rfl
  pending := by simp [same]
  others i other := by simp [other]
  control := rfl
  finalizeList := ⟨[], (List.append_nil _).symm, Nat.le_refl 0⟩
  told := .of_same rfl rfl

theorem setState (rx : Receiver) (state : TcpState) :
    PollEffect idx payload false 0 0 rx (rx.updateSlot idx fun c => { c with state := state }) :=
  updateSlot fun _ => rfl

theorem refl (idx : Nat) (rx : Receiver) : PollEffect idx payload false 0 0 rx rx where
  ackList := rfl
  pending := (Bool.or_false _).symm
  others _ _ := rfl
  control := rfl
  finalizeList := ⟨[], (List.append_nil _).symm, Nat.le_refl 0⟩
  told := .of_same rfl rfl

/-- What two steps add to the lists adds up. -/
theorem trans (first : PollEffect idx payload owes ends tells rx rx')
    (second : PollEffect idx payload owes' ends' tells' rx' rx'') :
    PollEffect idx payload (owes || owes') (ends + ends') (tells + tells') rx rx'' where
  ackList := by
    rw [second.ackList, first.pending, first.ackList]
    cases owes <;> cases owes' <;> cases (rx.slots idx).ackPending <;> rfl
  pending := by rw [second.pending, first.pending, Bool.or_assoc]
  others i other := (second.others i other).trans (first.others i other)
  control := second.control.trans first.control
  finalizeList := by
    obtain ⟨ended, grown, few⟩ := first.finalizeList
    obtain ⟨more, grownAgain, fewMore⟩ := second.finalizeList
    refine ⟨ended ++ more, by rw [grownAgain, grown, List.append_assoc], ?_⟩
    rw [List.length_append]
    exact Nat.add_le_add few fewMore
  told := first.told.trans second.told

theorem mono (effect : PollEffect idx payload owes ends tells rx rx') (moreEnds : ends ≤ ends')
    (moreTells : tells ≤ tells') : PollEffect idx payload owes ends' tells' rx rx' where
  ackList := effect.ackList
  pending := effect.pending
  others := effect.others
  control := effect.control
  finalizeList := by
    obtain ⟨ended, grown, few⟩ := effect.finalizeList
    exact ⟨ended, grown, Nat.le_trans few moreEnds⟩
  told := effect.told.mono moreTells

theorem count (rx : Receiver) (counter : Counter) : PollEffect idx payload false 0 0 rx
    (rx.count counter) :=
  { refl idx rx with }

theorem queueAck (rx : Receiver) : PollEffect idx payload true 0 0 rx (rx.queueAck idx) where
  ackList := by
    unfold Receiver.queueAck
    split
    · rename_i pending
      simp [pending]
    · rename_i unpending
      simp [unpending]
  pending := by simp
  others i other := by simp [other]
  control := by
    unfold Receiver.queueAck
    split <;> rfl
  finalizeList := ⟨[], by simp, Nat.le_refl 0⟩
  told := by
    refine .of_same (by simp) ?_
    unfold Receiver.queueAck
    split <;> rfl

theorem note {entry : RxEntry} (silent : entry.pushed? = none) :
    PollEffect idx payload false 0 0 rx (rx.note entry) where
  ackList := rfl
  pending := (Bool.or_false _).symm
  others _ _ := rfl
  control := rfl
  finalizeList := ⟨[], (List.append_nil _).symm, Nat.le_refl 0⟩
  told := .silent (show (rx.note entry).log = [entry] ++ rx.log from rfl)
    (by simp [silent]) rfl

theorem pushEvent (rx : Receiver) (type : TcpEventType) {data : List Byte}
    (carried : data <:+ payload) :
    PollEffect idx payload false 0 1 rx (rx.pushEvent type idx data) where
  ackList := rfl
  pending := (Bool.or_false _).symm
  others _ _ := rfl
  control := rfl
  finalizeList := ⟨[], (List.append_nil _).symm, Nat.le_refl 0⟩
  told := by
    refine ⟨[.event (rx.makeEvent type idx data)], rfl, rfl, Nat.le_refl 1, ?_⟩
    simpa [RxEntry.pushed?, Receiver.makeEvent] using carried

theorem scheduleFinalize (rx : Receiver) : PollEffect idx payload false 1 0 rx
    (rx.scheduleFinalize idx) where
  ackList := by
    unfold Receiver.scheduleFinalize
    split <;> rfl
  pending := by simp
  others i other := by simp [other]
  control := by
    unfold Receiver.scheduleFinalize
    split <;> rfl
  finalizeList := by
    unfold Receiver.scheduleFinalize
    split
    · exact ⟨[], (List.append_nil _).symm, Nat.zero_le 1⟩
    · exact ⟨[idx], rfl, Nat.le_refl 1⟩
  told := by
    refine .of_same (by simp) ?_
    unfold Receiver.scheduleFinalize
    split <;> rfl

end PollEffect

/-! ## Programs on a slot -/

section Programs

variable (idx : Nat) (seg : Segment) (mem : Memory) (payload : List Byte)

theorem terminate_effect {why : TcpEventType} (clean : why ≠ .reset) :
    PollEffect idx payload false 1 1 mem.rx ((terminate idx why).run mem).2.rx := by
  rw [terminate, run_inbound_bind, run_inbound]
  have closed : PollEffect idx payload false 0 0 mem.rx (mem.rx.updateSlot idx fun c =>
      { c with
        state := .closed
        terminated := true
        ackPending := if why = .reset then false else c.ackPending }) :=
    .updateSlot fun _ => if_neg clean
  exact (closed.trans (.pushEvent _ why List.nil_suffix)).trans (.scheduleFinalize _)

theorem takeFin_effect (rx : Receiver) : PollEffect idx payload false 0 0 rx (takeFin idx rx) :=
  (PollEffect.updateSlot (by intro _; rfl)).trans (.note rfl)

theorem consumeFin_effect :
    PollEffect idx payload false 1 1 mem.rx ((consumeFin idx).run mem).2.rx := by
  have taken := takeFin_effect idx payload mem.rx
  rw [consumeFin, run_viewRx_bind]
  cases (mem.rx.slots idx).state with
  | established =>
      have moved := taken.trans (.setState (takeFin idx mem.rx) .closeWait)
      exact (moved.trans (.pushEvent _ .peerClosed List.nil_suffix)).mono (Nat.zero_le 1)
        (Nat.le_refl 1)
  | finWait1 =>
      have moved := taken.trans (.setState (takeFin idx mem.rx) .closing)
      exact moved.mono (Nat.zero_le 1) (Nat.zero_le 1)
  | finWait2 =>
      have closed : TcpEventType.closed ≠ .reset := by decide
      exact taken.trans (terminate_effect idx ⟨takeFin idx mem.rx, mem.tx⟩ payload closed)
  | _ => exact taken.mono (Nat.zero_le 1) (Nat.zero_le 1)

theorem deliver_effect (rx : Receiver) : PollEffect idx seg.payload false 0 1 rx
    (deliver idx seg rx) := by
  unfold deliver
  dsimp only
  split
  · exact (PollEffect.pushEvent rx .data (List.drop_suffix _ _)).trans
      (.updateSlot (by intro _; rfl))
  · exact (PollEffect.refl idx rx).mono (Nat.le_refl 0) (Nat.zero_le 1)

/-- Data: at most two events, and an ACK if the segment occupies sequence numbers. -/
theorem processData_effect :
    PollEffect idx seg.payload (occupies seg) 1 2 mem.rx
      ((processData idx seg).run mem).2.rx := by
  rw [processData, run_viewRx_bind]
  split
  · rw [Program.run_when, ← occupies]
    cases occupied : occupies seg with
    | true => exact (PollEffect.queueAck mem.rx).mono (Nat.zero_le 1) (Nat.zero_le 2)
    | false => exact (PollEffect.refl idx mem.rx).mono (Nat.zero_le 1) (Nat.zero_le 2)
  · split
    · rename_i pure
      have idle : occupies seg = false := by rw [occupies_eq, pure, Bool.not_true]
      rw [idle]
      exact (PollEffect.refl idx mem.rx).mono (Nat.zero_le 1) (Nat.zero_le 2)
    · rename_i busy
      have occupied : occupies seg = true := by
        rw [occupies_eq, Bool.eq_false_iff.mpr busy, Bool.not_false]
      rw [occupied]
      split
      · have queued : PollEffect idx seg.payload true 0 0 mem.rx
            ((mem.rx.count .outOfOrder).queueAck idx) :=
          (PollEffect.count mem.rx .outOfOrder).trans (.queueAck _)
        exact queued.mono (Nat.zero_le 1) (Nat.zero_le 2)
      · rw [run_inbound_bind, run_viewRx_bind, Program.run_bind', Program.run_when]
        have delivered := (deliver_effect idx seg mem.rx).trans (PollEffect.queueAck _)
        have published : ∀ rx : Receiver, PollEffect idx seg.payload false 0 0 rx
            (rx.updateSlot idx fun c => { c with rcvNxt := c.rcvNxtLocal }) :=
          fun _ => .updateSlot fun _ => rfl
        split
        · exact (delivered.trans (consumeFin_effect idx
            ⟨(deliver idx seg mem.rx).queueAck idx, mem.tx⟩ seg.payload)).trans (published _)
        · exact (delivered.trans (published _)).mono (Nat.zero_le 1) (Nat.le_succ 1)

theorem finishAck_effect (out : BitVec 8) (sndNxt : BitVec 32) :
    let result := (finishAck idx seg out sndNxt).run mem
    let stops := if result.1 then 0 else 1
    PollEffect idx seg.payload false stops stops mem.rx result.2.rx := by
  rw [finishAck]
  split
  · rw [run_viewRx_bind]
    cases (mem.rx.slots idx).state with
    | finWait1 => exact PollEffect.setState mem.rx .finWait2
    | closing | lastAck =>
        have closed : TcpEventType.closed ≠ .reset := by decide
        exact terminate_effect idx mem seg.payload closed
    | _ => exact PollEffect.refl idx mem.rx
  · exact PollEffect.refl idx mem.rx

/-- An ACK: at most one event and one connection to finalize. -/
theorem processAck_effect :
    let result := (processAck idx seg).run mem
    let stops := if result.1 then 0 else 1
    PollEffect idx seg.payload (seqGt seg.ack (mem.tx.slots idx).sndNxt) stops stops mem.rx
      result.2.rx := by
  rw [processAck, run_loadOutFlags_bind, run_checkAck_bind]
  by_cases beyond : seqGt seg.ack (mem.tx.slots idx).sndNxt = true
  · rw [if_pos beyond, beyond]
    have queued : PollEffect idx seg.payload true 0 0 mem.rx ((mem.rx.queueAck idx).note
        (.ackRefused idx seg.ack (mem.tx.slots idx).sndNxt)) :=
      (PollEffect.queueAck mem.rx).trans (.note rfl)
    exact queued.mono (Nat.zero_le 1) (Nat.zero_le 1)
  · rw [if_neg beyond, Bool.eq_false_iff.mpr beyond]
    dsimp only
    rw [Program.run_bind']
    have recorded : PollEffect idx seg.payload false 0 0 mem.rx
        ((Program.when (ackChanges seg (mem.rx.slots idx)) (publishWindow idx)).run
          ⟨mem.rx.updateSlot idx (recordAck seg), mem.tx⟩).2.rx := by
      have noted : PollEffect idx seg.payload false 0 0 mem.rx
          (mem.rx.updateSlot idx (recordAck seg)) := by
        refine .updateSlot fun c => ?_
        obtain ⟨una, wnd, wl1, wl2, same⟩ := recordAck_eq seg c
        rw [same]
      rw [Program.run_when]
      split
      · have published : PollEffect idx seg.payload false 0 0
            (mem.rx.updateSlot idx (recordAck seg))
            ((mem.rx.updateSlot idx (recordAck seg)).updateSlot idx fun c =>
              { c with sendWindow := packWindow c.sndUna c.sndWnd }) :=
          .updateSlot fun _ => rfl
        exact noted.trans published
      · exact noted
    have finished := finishAck_effect idx seg ((Program.when
      (ackChanges seg (mem.rx.slots idx)) (publishWindow idx)).run
        ⟨mem.rx.updateSlot idx (recordAck seg), mem.tx⟩).2
      (mem.tx.slots idx).outFlags (mem.tx.slots idx).sndNxt
    simpa using recorded.trans finished

end Programs

/-! ## Segments -/

/-- What a segment does to the lists of a poll. -/
structure Serves (idx : Nat) (payload : List Byte) (owes cancels : Bool)
    (reply : Option TxSegment) (rx rx' : Receiver) : Prop where
  ackList : rx'.ackList =
    if owes && !(rx.slots idx).ackPending then rx.ackList ++ [idx] else rx.ackList
  pending : (rx'.slots idx).ackPending =
    (!cancels && ((rx.slots idx).ackPending || owes))
  others : ∀ i, i ≠ idx → (rx'.slots i).ackPending = (rx.slots i).ackPending
  control : rx'.control = queued rx.control (reply.map .tcp)
  finalizeList : ∃ ended, rx'.finalizeList = rx.finalizeList ++ ended ∧ ended.length ≤ 1
  told : Pushes payload 3 rx rx'

/-- An effect within the limits of a segment. -/
theorem PollEffect.serves {idx ends tells : Nat} {payload : List Byte} {owes : Bool}
    {rx rx' : Receiver}
    (effect : PollEffect idx payload owes ends tells rx rx') (fewEnds : ends ≤ 1)
    (fewTells : tells ≤ 3) :
    Serves idx payload owes false none rx rx' where
  ackList := effect.ackList
  pending := by rw [effect.pending, Bool.not_false, Bool.true_and]
  others := effect.others
  control := effect.control
  finalizeList := (effect.mono fewEnds fewTells).finalizeList
  told := (effect.mono fewEnds fewTells).told

/-- Work before a segment is served. -/
theorem Serves.after {idx : Nat} {payload : List Byte} {owes cancels : Bool}
    {reply : Option TxSegment}
    {rx rx' rx'' : Receiver} (effect : PollEffect idx payload false 0 0 rx rx')
    (serves : Serves idx payload owes cancels reply rx' rx'') :
    Serves idx payload owes cancels reply rx rx'' := by
  have pending : (rx'.slots idx).ackPending = (rx.slots idx).ackPending := by
    rw [effect.pending, Bool.or_false]
  have ackList : rx'.ackList = rx.ackList := effect.ackList
  obtain ⟨ended, sameList, none⟩ := effect.finalizeList
  have nothing : ended = [] := List.eq_nil_of_length_eq_zero (Nat.le_zero.mp none)
  constructor
  · rw [serves.ackList, pending, ackList]
  · rw [serves.pending, pending]
  · exact fun i other => (serves.others i other).trans (effect.others i other)
  · rw [serves.control, effect.control]
  · obtain ⟨ended', sameList', single⟩ := serves.finalizeList
    exact ⟨ended', by rw [sameList', sameList, nothing, List.append_nil], single⟩
  · exact (effect.told.trans serves.told).mono (Nat.le_refl 3)

/-- A control packet and nothing else. -/
theorem Serves.queueControl (idx : Nat) {payload : List Byte} (rx : Receiver)
    (reply : Option TxSegment) :
    Serves idx payload false false reply rx (rx.queueControl (reply.map .tcp)) where
  ackList := by simp
  pending := by simp
  others i _ := by simp
  control := queueControl_control rx _
  finalizeList := ⟨[], by simp, Nat.zero_le 1⟩
  told := (Pushes.of_same (by simp) (by simp)).mono (Nat.zero_le 3)

section Segments

variable (k : TcpStack) (idx : Nat) (seg : Segment) (pool : Bool) (mem : Memory)

/-- A reset takes back the ACK. -/
theorem terminate_serves :
    Serves idx seg.payload false true none mem.rx ((terminate idx .reset).run mem).2.rx := by
  have effect : ∀ rx : Receiver,
      PollEffect idx seg.payload false 1 1 rx ((rx.pushEvent .reset idx []).scheduleFinalize idx) :=
    fun rx => (PollEffect.pushEvent rx .reset List.nil_suffix).trans (.scheduleFinalize _)
  have serves := (effect (mem.rx.updateSlot idx fun c =>
    { c with
      state := .closed
      terminated := true
      ackPending := if TcpEventType.reset = .reset then false else c.ackPending })).serves
        (Nat.le_refl 1) (by omega)
  rw [terminate, run_inbound_bind, run_inbound]
  constructor
  case ackList => exact serves.ackList
  case pending =>
    rw [serves.pending]
    simp
  case others =>
    intro i other
    rw [serves.others i other]
    simp [other]
  case control => exact serves.control
  case finalizeList => exact serves.finalizeList
  case told => exact serves.told

theorem eraseFlow_lists (rx : Receiver) :
    ((rx.eraseFlow idx).slots = rx.slots ∧ (rx.eraseFlow idx).ackList = rx.ackList ∧
      (rx.eraseFlow idx).control = rx.control ∧
      (rx.eraseFlow idx).finalizeList = rx.finalizeList ∧
      (rx.eraseFlow idx).events = rx.events) ∧
    ((rx.eraseFlow idx).log = rx.log ∨ (rx.eraseFlow idx).log = .fault :: rx.log) := by
  unfold Receiver.eraseFlow
  split
  · exact ⟨⟨rfl, rfl, rfl, rfl, rfl⟩, Or.inr rfl⟩
  · exact ⟨⟨rfl, rfl, rfl, rfl, rfl⟩, Or.inl rfl⟩

/-- An aborted handshake. -/
theorem releaseSlot_serves (rx : Receiver) :
    Serves idx seg.payload false true none rx ((rx.eraseFlow idx).releaseSlot idx) := by
  obtain ⟨⟨slots, ackList, control, finalizeList, sameEvents⟩, log⟩ := eraseFlow_lists idx rx
  constructor
  case ackList => exact ackList
  case pending => simp
  case others =>
    intro i other
    simp [other, slots]
  case control => exact control
  case finalizeList => exact ⟨[], by simpa using finalizeList, Nat.zero_le 1⟩
  case told =>
    rcases log with same | fault
    · exact (Pushes.of_same same sameEvents).mono (Nat.zero_le 3)
    · have logged : ((rx.eraseFlow idx).releaseSlot idx).log = [.fault] ++ rx.log := fault
      exact (Pushes.silent logged rfl sameEvents).mono (Nat.zero_le 3)

/-- The handshake answers with a SYN-ACK or a reset, or accepts. -/
theorem processHandshake_serves (state : (mem.rx.slots idx).state = .synReceived) :
    let session := mem.session idx
    Serves idx seg.payload (session.owes seg) (session.cancels k seg)
      (session.reply k seg pool) mem.rx
      ((processHandshake k idx seg pool).run mem).2.rx := by
  intro session
  have synced : session.syncOutFlags.conn.state = .synReceived := by
    rw [Session.syncOutFlags_eq, session_state, state]
    rfl
  have syn : session.conn.state = .synReceived := state
  have acceptable : rstAcceptable k session.conn seg =
      rstAcceptable k (mem.rx.slots idx) seg := rfl
  have sameIrs : session.conn.irs = (mem.rx.slots idx).irs := rfl
  have sameAck : synAck k session.conn pool = synAck k (mem.rx.slots idx) pool := rfl
  rw [Session.owes, synced, Session.cancels, syn, Session.reply, syn, processHandshake,
    run_viewRx_bind, session_iss, acceptable, sameIrs, sameAck]
  have idle : Serves idx seg.payload false false none mem.rx mem.rx :=
    (PollEffect.refl idx mem.rx).serves (Nat.zero_le 1) (Nat.zero_le 3)
  cases rst : seg.has rstFlag with
  | true =>
      simp only [Bool.not_true, Bool.false_and, Bool.true_and, if_true, Program.run_when]
      cases rstAcceptable k (mem.rx.slots idx) seg with
      | true => exact .after (.count mem.rx .rstReceived) (releaseSlot_serves idx seg _)
      | false => exact idle
  | false =>
      simp only [Bool.not_false, Bool.false_and, Bool.true_and, Bool.false_eq_true, if_false]
      cases syn : seg.has synFlag with
      | true =>
          simp only [Bool.not_true, Bool.false_and, if_true, Program.run_when]
          cases !seg.has ackFlag && seg.seq == (mem.rx.slots idx).irs with
          | true => exact .queueControl idx mem.rx _
          | false => exact idle
      | false =>
          simp only [Bool.not_false, Bool.true_and, Bool.false_eq_true, if_false]
          cases ack : seg.has ackFlag with
          | false => exact idle
          | true =>
              simp only [Bool.not_true, Bool.true_and, Bool.false_eq_true, if_false]
              by_cases expected : seg.ack = (mem.rx.slots idx).iss + 1
              · have equal : (seg.ack == (mem.rx.slots idx).iss + 1) = true :=
                  beq_iff_eq.mpr expected
                have same : (seg.ack != (mem.rx.slots idx).iss + 1) = false := by simp [expected]
                rw [if_neg (Bool.eq_false_iff.mp same), if_neg (Bool.eq_false_iff.mp same), equal,
                  Bool.true_and]
                have confirmed : PollEffect idx seg.payload false 0 0 mem.rx
                    (mem.rx.updateSlot idx (firstAck seg)) := .updateSlot (by intro _; rfl)
                have established := (confirmed.trans (.setState _ .established)).trans
                  (.pushEvent _ .accepted List.nil_suffix)
                have worked := established.trans (processData_effect idx seg ⟨_, mem.tx⟩)
                exact worked.serves (Nat.le_refl 1) (Nat.le_refl 3)
              · have differ : (seg.ack != (mem.rx.slots idx).iss + 1) = true :=
                  bne_iff_ne.mpr expected
                have unequal : (seg.ack == (mem.rx.slots idx).iss + 1) = false := by
                  simpa using expected
                have sent : sendRstFor k mem.rx seg pool =
                    (mem.rx.count .rstSent).queueControl ((rstFor k seg pool).map .tcp) := by
                  rw [sendRstFor, if_neg (by simp [rst])]
                rw [if_pos differ, if_pos differ, unequal, Bool.false_and, run_inbound, sent]
                exact .after (.count mem.rx .rstSent) (.queueControl idx _ _)

/-- A synchronized connection queues at most one ACK, and takes one back when it is reset. -/
theorem processSynchronized_serves :
    let session := mem.session idx
    Serves idx seg.payload
      (!seg.has rstFlag && (seg.has synFlag || (seg.has ackFlag &&
        (seqGt seg.ack session.out.sndNxt || ((session.processAck seg).1 && occupies seg)))))
      (seg.has rstFlag && rstAcceptable k session.conn seg) none mem.rx
      ((processSynchronized k idx seg).run mem).2.rx := by
  intro session
  have acceptable : rstAcceptable k session.conn seg =
      rstAcceptable k (mem.rx.slots idx) seg := rfl
  rw [processSynchronized, run_viewRx_bind, acceptable]
  have idle : Serves idx seg.payload false false none mem.rx mem.rx :=
    (PollEffect.refl idx mem.rx).serves (Nat.zero_le 1) (Nat.zero_le 3)
  cases rst : seg.has rstFlag with
  | true =>
      simp only [Bool.not_true, Bool.false_and, Bool.true_and, if_true, Program.run_when]
      cases rstAcceptable k (mem.rx.slots idx) seg with
      | true =>
          exact .after (.count mem.rx .rstReceived)
            (terminate_serves idx seg ⟨mem.rx.count .rstReceived, mem.tx⟩)
      | false => exact idle
  | false =>
      simp only [Bool.not_false, Bool.false_and, Bool.true_and, Bool.false_eq_true, if_false]
      cases syn : seg.has synFlag with
      | true => exact (PollEffect.queueAck mem.rx).serves (Nat.zero_le 1) (Nat.zero_le 3)
      | false =>
          simp only [Bool.false_or, Bool.false_eq_true, if_false]
          cases ack : seg.has ackFlag with
          | false => exact idle
          | true =>
              have acked := processAck_effect idx seg mem
              obtain ⟨proceeds, _⟩ := processAck_turns idx seg mem
              simp only [Bool.not_true, Bool.true_and, Bool.false_eq_true, if_false]
              rw [Program.run_bind', Program.run_when, proceeds]
              dsimp only at acked
              rw [proceeds] at acked
              cases goesOn : (session.processAck seg).1 with
              | true =>
                  rw [goesOn] at acked
                  have worked := acked.trans (processData_effect idx seg _)
                  exact worked.serves (Nat.le_refl 1) (Nat.le_succ 2)
              | false =>
                  rw [goesOn] at acked
                  rw [Bool.false_and, Bool.or_false]
                  exact acked.serves (Nat.le_refl 1) (by decide)

theorem syncOutFlags_effect :
    PollEffect idx seg.payload false 0 0 mem.rx ((syncOutFlags idx).run mem).2.rx := by
  rw [syncOutFlags, run_loadOutFlags_bind, Program.run_when]
  split
  · rw [run_inbound]
    dsimp only
    apply PollEffect.updateSlot
    intro c
    split <;> rfl
  · exact .refl idx mem.rx

/-- The step lemma: what a segment adds to the lists, as a function of the session alone. -/
theorem processSegment_serves :
    let session := mem.session idx
    Serves idx seg.payload (session.owes seg) (session.cancels k seg)
      (session.reply k seg pool) mem.rx
      ((processSegment k idx seg pool).run mem).2.rx := by
  intro session
  have synced := syncOutFlags_turns idx mem
  have here : (((syncOutFlags idx).run mem).2).session idx =
      session.setState (session.conn.state.synced (hasFinSent session.out.outFlags)) :=
    synced.here.trans session.syncOutFlags_eq
  have worked := syncOutFlags_effect idx seg mem
  have handshake := processHandshake_serves k idx seg pool ((syncOutFlags idx).run mem).2
  have synchronized := processSynchronized_serves k idx seg ((syncOutFlags idx).run mem).2
  dsimp only at handshake synchronized
  rw [here] at handshake synchronized
  have sameState : (((syncOutFlags idx).run mem).2.rx.slots idx).state =
      session.conn.state.synced (hasFinSent session.out.outFlags) := by
    rw [← session_state, here]
    rfl
  rw [sameState] at handshake
  rw [processSegment, Program.run_bind', run_viewRx_bind, sameState]
  have idle := worked.serves (Nat.zero_le 1) (Nat.zero_le 3)
  -- only two states are folded, and they stay among the synchronized ones
  cases state : session.conn.state with
  | free | closed =>
      rw [Session.owes, Session.syncOutFlags_eq, Session.cancels, Session.reply, state]
      exact idle
  | synReceived =>
      have same : session.setState .synReceived = session := by
        rw [← state]
        rfl
      rw [state] at handshake
      exact .after worked (same ▸ handshake rfl)
  | established | closeWait =>
      rw [Session.owes, Session.syncOutFlags_eq, Session.cancels, Session.reply, state]
      rw [state] at synchronized
      cases sent : hasFinSent session.out.outFlags with
      | true | false =>
          rw [sent] at synchronized
          exact .after worked synchronized
  | _ =>
      rw [Session.owes, Session.syncOutFlags_eq, Session.cancels, Session.reply, state]
      rw [state] at synchronized
      exact .after worked synchronized

/-- A segment that is owed an ACK is not answered at once. -/
theorem Session.reply_eq_none {session : Session} (owed : session.owes seg = true) :
    session.reply k seg pool = none := by
  rw [Session.reply]
  cases state : session.conn.state with
  | synReceived =>
      have synced : session.syncOutFlags.conn.state = .synReceived := by
        rw [Session.syncOutFlags_eq, state]
        rfl
      rw [Session.owes, synced] at owed
      simp only [Bool.and_eq_true, Bool.not_eq_true', beq_iff_eq] at owed
      obtain ⟨⟨⟨⟨rst, syn⟩, ack⟩, expected⟩, _⟩ := owed
      simp [rst, syn, ack, expected]
  | _ => rfl

end Segments

/-! ## Opening -/

theorem insertFlow_lists (idx : Nat) (rx : Receiver) :
    ((rx.insertFlow idx).slots = rx.slots ∧ (rx.insertFlow idx).ackList = rx.ackList ∧
      (rx.insertFlow idx).control = rx.control ∧
      (rx.insertFlow idx).finalizeList = rx.finalizeList ∧
      (rx.insertFlow idx).events = rx.events) ∧
    ((rx.insertFlow idx).log = rx.log ∨ (rx.insertFlow idx).log = .fault :: rx.log) := by
  unfold Receiver.insertFlow
  split
  · exact ⟨⟨rfl, rfl, rfl, rfl, rfl⟩, Or.inr rfl⟩
  · exact ⟨⟨rfl, rfl, rfl, rfl, rfl⟩, Or.inl rfl⟩

/-- `open` owes nothing and queues the SYN-ACK of the new connection. -/
theorem openSlot_serves (k : TcpStack) (idx : Nat) (seg : Segment) (peerMss : BitVec 16)
    (rand : BitVec 64) (pool : Bool) (mem : Memory) :
    Serves idx seg.payload false true
      (synAck k ((mem.session idx).openFor k seg peerMss rand).conn pool)
      mem.rx ((openSlot k idx seg peerMss rand pool).run mem).2.rx := by
  rw [openSlot, run_viewRx_bind, run_inbound_bind, run_inbound_bind, publishWindow,
    run_inbound_bind, run_inbound_bind, run_storeSndNxt_bind, run_outbound_bind, run_inbound]
  dsimp only
  generalize opened : Receiver.updateSlot _ idx
    (fun c : TcpConnection => { c with terminated := false }) = rx'
  obtain ⟨⟨slots, ackList, control, finalizeList, sameEvents⟩, log⟩ := insertFlow_lists idx rx'
  have reply : synAck k (rx'.slots idx) pool =
      synAck k ((mem.session idx).openFor k seg peerMss rand).conn pool := by
    simp [← opened, synAck, replyAddr, Session.openFor, initialized]
  rw [sendSynAck, reply]
  constructor
  case ackList =>
    rw [queueControl_ackList, ackList, ← opened]
    rfl
  case pending =>
    rw [Receiver.queueControl_slots, slots, ← opened]
    simp [initialized]
  case others =>
    intro i other
    rw [Receiver.queueControl_slots, slots, ← opened]
    simp [other]
  case control =>
    rw [queueControl_control, control, ← opened]
    rfl
  case finalizeList =>
    refine ⟨[], ?_, Nat.zero_le 1⟩
    rw [(Receiver.queueControl_frame _ _).2.2.2, finalizeList, ← opened, List.append_nil]
    rfl
  case told =>
    have before : rx'.log = .opened idx :: mem.rx.log := by
      rw [← opened]
      rfl
    have silent : (rx'.insertFlow idx).events = mem.rx.events := by
      rw [sameEvents, ← opened]
      rfl
    have inserted : Pushes seg.payload 0 mem.rx (rx'.insertFlow idx) := by
      rcases log with same | fault
      · exact .silent (show _ = [.opened idx] ++ mem.rx.log from same.trans before) rfl silent
      · exact .silent (show _ = [.fault, .opened idx] ++ mem.rx.log from
          fault.trans (congrArg _ before)) rfl silent
    exact (inserted.trans (.of_same (by simp) (by simp))).mono (Nat.zero_le 3)

/-! ## Packets -/

/-- What a packet does to one slot. -/
inductive Touches (k : TcpStack) (packet : RxPacket) (mem mem' : Memory) (i : Nat) : Prop
  | apart (session : mem'.session i = mem.session i)
      (pending : (mem'.rx.slots i).ackPending = (mem.rx.slots i).ackPending)
      (elsewhere : ∀ seg, decode k packet.frame packet.contiguous = some (.segment seg) →
        i < k.maxConnections → (mem.rx.summary i).InFlow → ¬(mem.session i).Matches seg)
  | opened {seg : Segment} {peerMss : BitVec 16}
      (decoded : decode k packet.frame packet.contiguous = some (.segment seg))
      (inside : i < k.maxConnections) (free : (mem.rx.slots i).state = .free)
      (mss : parseMssOption seg.options = some peerMss)
      (session : mem'.session i = (mem.session i).openFor k seg peerMss packet.rand)
      (pending : (mem'.rx.slots i).ackPending = false)
  | segment {seg : Segment}
      (decoded : decode k packet.frame packet.contiguous = some (.segment seg))
      (inside : i < k.maxConnections) (inFlow : (mem.rx.summary i).InFlow)
      (named : (mem.session i).Matches seg)
      (session : mem'.session i = (mem.session i).processSegment k seg)
      (out : mem'.tx.slots i = mem.tx.slots i)
      (pending : (mem'.rx.slots i).ackPending =
        (!(mem.session i).cancels k seg &&
          ((mem.rx.slots i).ackPending || (mem.session i).owes seg)))

section

variable {k : TcpStack} {packet : RxPacket} {mem mem' : Memory}

/-- The cases of `Dispatch`, as seen from one slot. -/
theorem Dispatch.touches (dispatch : Dispatch k packet mem mem')
    (accounts : Accounting k mem.rx) (i : Nat) : Touches k packet mem mem' i := by
  cases dispatch with
  | other undecoded answers =>
      exact .apart (answers.session i) (by rw [answers.slots])
        fun seg decoded => absurd decoded (undecoded seg)
  | refused decoded unknown _ answers =>
      refine .apart (answers.session i) (by rw [answers.slots]) fun seg found inside inFlow => ?_
      cases decoded.symm.trans found
      exact unknown i inside inFlow
  | @opened seg idx rest peerMss decoded unknown _ free mss =>
      have serves := openSlot_serves k idx seg peerMss packet.rand packet.pool mem
      have sessions := openSlot_sessions k idx seg peerMss packet.rand packet.pool mem
      by_cases here : i = idx
      · subst here
        have listed : i ∈ mem.rx.freeSlots := by
          rw [free]
          exact List.mem_cons_self
        obtain ⟨inside, state⟩ := (accounts.partitioned.mem_freeSlots i).mp listed
        exact .opened decoded inside state mss ((sessions i).trans (if_pos rfl)) serves.pending
      · refine .apart (by rw [sessions, if_neg here]) (serves.others i here)
          fun found same inside inFlow => ?_
        cases decoded.symm.trans same
        exact unknown i inside inFlow
  | @segment seg idx decoded inside inFlow named =>
      have serves := processSegment_serves k idx seg packet.pool mem
      have turns := processSegment_turns idx seg mem k packet.pool
      by_cases here : i = idx
      · subst here
        exact .segment decoded inside inFlow named turns.here (by rw [turns.tx]) serves.pending
      · refine .apart (turns.others i here) (serves.others i here)
          fun found same iInside iInFlow iNamed => here ?_
        cases decoded.symm.trans same
        exact eq_of_matches accounts iInside inside iInFlow inFlow iNamed named

/-- A segment of a live connection is given to it. -/
theorem process_here (accounts : Accounting k mem.rx) {i : Nat} (inside : i < k.maxConnections)
    (unfree : (mem.rx.slots i).state ≠ .free) (unclosed : (mem.rx.slots i).state ≠ .closed)
    {seg : Segment} (decoded : decode k packet.frame packet.contiguous = some (.segment seg))
    (named : (mem.session i).Matches seg) :
    ((process k packet).run mem).2.session i = (mem.session i).processSegment k seg := by
  cases (process_dispatch accounts packet).touches accounts i with
  | apart _ _ elsewhere =>
      exact absurd named (elsewhere seg decoded inside
        (accounts.inFlow_of_live inside unfree unclosed))
  | opened _ _ free => exact absurd free unfree
  | segment found _ _ _ session =>
      cases decoded.symm.trans found
      exact session

/-- The events that a packet adds carry ends of its payload. -/
theorem Dispatch.pushes (dispatch : Dispatch k packet mem mem') :
    ∃ payload, Pushes payload 3 mem.rx mem'.rx ∧
      (payload = [] ∨ ∃ seg, decode k packet.frame packet.contiguous = some (.segment seg) ∧
        payload = seg.payload) := by
  cases dispatch with
  | other _ answers | refused _ _ _ answers =>
      exact ⟨[], (Pushes.of_same answers.log answers.events).mono (Nat.zero_le 3), Or.inl rfl⟩
  | opened decoded =>
      exact ⟨_, (openSlot_serves k _ _ _ _ _ mem).told, Or.inr ⟨_, decoded, rfl⟩⟩
  | segment decoded =>
      exact ⟨_, (processSegment_serves k _ _ _ mem).told, Or.inr ⟨_, decoded, rfl⟩⟩

end

end DpdkWrapper.Tcp
