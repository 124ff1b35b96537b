import DpdkWrapper.Tcp.SlotStep

/-!
# The inbound thread keeps its protocol

Under interference by the outbound thread, every program of the receiver makes
only steps that `SlotStep` lists, and each of its tasks leaves the accounts in
order.  `Spec` is the specification form used for both: the outbound thread
never writes the receiver's state, so between two steps that state is known
exactly.
-/

namespace DpdkWrapper.Tcp

open Arp Threads Wire

variable {terms : Terms}

/-! ## Ordinary steps -/

/-- Log entries that neither open nor accept a connection. -/
def RxEntry.Ordinary (rx : Receiver) : RxEntry → Prop
  | .opened _ => False
  | .event pushed => pushed.type ≠ .accepted ∧
      pushed.conn.generation = (rx.slots pushed.conn.slot).generation
  | _ => True

/-- A change that no other thread can tell from a pause or from progress of an
accepted connection. -/
structure Unobserved (rx rx' : Receiver) : Prop where
  freeSlots : rx'.freeSlots = rx.freeSlots
  keeps : ∀ i, (rx.slots i).Keeps (rx'.slots i)
  log : ∃ entries, rx'.log = entries ++ rx.log ∧ ∀ entry ∈ entries, entry.Ordinary rx

theorem RxEntry.Ordinary.ne_opened {rx : Receiver} {entry : RxEntry}
    (ordinary : entry.Ordinary rx) (i : Nat) : entry ≠ .opened i := by
  rintro rfl
  exact ordinary

theorem RxEntry.Ordinary.not_accepts {rx : Receiver} {entry : RxEntry}
    (ordinary : entry.Ordinary rx) (i : Nat) : entry.accepts i = false := by
  cases entry with
  | event pushed => simp [RxEntry.accepts, ordinary.1]
  | _ => rfl

/-- Ordinary entries open no slot. -/
theorem opens_append {rx : Receiver} {entries : List RxEntry}
    (ordinary : ∀ entry ∈ entries, entry.Ordinary rx) (i : Nat) (log : List RxEntry) :
    opens i (entries ++ log) = opens i log := by
  induction entries with
  | nil => rfl
  | cons entry rest ih =>
      have first := ordinary entry List.mem_cons_self
      rw [List.cons_append, opens_cons_of_ne (first.ne_opened i)]
      exact ih fun other member => ordinary other (List.mem_cons_of_mem entry member)

theorem acceptedSince_append {rx : Receiver} {entries : List RxEntry}
    (ordinary : ∀ entry ∈ entries, entry.Ordinary rx) (i : Nat) (log : List RxEntry) :
    acceptedSince i (entries ++ log) = acceptedSince i log := by
  induction entries with
  | nil => rfl
  | cons entry rest ih =>
      have first := ordinary entry List.mem_cons_self
      rw [List.cons_append, acceptedSince_cons_of_ne (first.ne_opened i),
        first.not_accepts i, Bool.false_or]
      exact ih fun other member => ordinary other (List.mem_cons_of_mem entry member)

namespace Unobserved

variable {rx rx' rx'' : Receiver}

theorem trans (first : Unobserved rx rx') (second : Unobserved rx' rx'') : Unobserved rx rx'' where
  freeSlots := second.freeSlots.trans first.freeSlots
  keeps i := (first.keeps i).trans (second.keeps i)
  log := by
    obtain ⟨entries, grown, ordinary⟩ := first.log
    obtain ⟨further, grownAgain, ordinaryToo⟩ := second.log
    refine ⟨further ++ entries, by rw [grownAgain, grown, List.append_assoc], ?_⟩
    intro entry member
    rcases List.mem_append.mp member with new | old
    · have late := ordinaryToo entry new
      cases entry with
      | event pushed =>
          have same := congrArg TcpConnection.Identity.generation
            (first.keeps pushed.conn.slot).identity
          exact ⟨late.1, late.2.trans same⟩
      | opened slot => exact late
      | _ => trivial
    · exact ordinary entry old

theorem opens_eq (unobserved : Unobserved rx rx') (i : Nat) : opens i rx'.log = opens i rx.log := by
  obtain ⟨entries, grown, ordinary⟩ := unobserved.log
  rw [grown, opens_append ordinary]

/-- What no other thread can observe is a step of the inbound thread. -/
theorem inStep (unobserved : Unobserved rx rx') (tx : Sender) :
    InStep terms ⟨rx, tx⟩ ⟨rx', tx⟩ where
  slot i := by
    obtain ⟨entries, grown, ordinary⟩ := unobserved.log
    have same : Memory.view ⟨rx', tx⟩ i =
        { Memory.view ⟨rx, tx⟩ i with conn := rx'.slots i } := by
      simp only [Memory.view, unobserved.freeSlots, grown, opens_append ordinary,
        acceptedSince_append ordinary]
    rw [same]
    exact SlotStep.keep (unobserved.keeps i)
  logged := by
    obtain ⟨entries, grown, ordinary⟩ := unobserved.log
    refine ⟨⟨entries, grown, ?_⟩, Or.inl rfl⟩
    intro event member
    obtain ⟨other, generation⟩ := ordinary _ member
    exact ⟨generation, fun accepted => absurd accepted other⟩

/-- A change of one slot. -/
theorem updateSlot (rx : Receiver) (idx : Nat) {change : TcpConnection → TcpConnection}
    (kept : (rx.slots idx).Keeps (change (rx.slots idx))) :
    Unobserved rx (rx.updateSlot idx change) where
  freeSlots := rfl
  keeps i := by
    rw [Receiver.updateSlot_slots]
    split
    · rename_i same
      exact same ▸ kept
    · exact .refl _
  log := ⟨[], rfl, fun _ member => absurd member List.not_mem_nil⟩

theorem note (rx : Receiver) (entry : RxEntry) (ordinary : entry.Ordinary rx) :
    Unobserved rx (rx.note entry) where
  freeSlots := rfl
  keeps _ := .refl _
  log := ⟨[entry], rfl, fun other member => by
    rw [List.mem_singleton.mp member]
    exact ordinary⟩

theorem pushEvent (rx : Receiver) (type : TcpEventType) (other : type ≠ .accepted)
    (idx : Nat) (data : List Byte) : Unobserved rx (rx.pushEvent type idx data) where
  freeSlots := rfl
  keeps _ := .refl _
  log := ⟨[.event (rx.makeEvent type idx data)], rfl, fun entry member => by
    rw [List.mem_singleton.mp member]
    exact ⟨other, rfl⟩⟩

theorem scheduleFinalize (rx : Receiver) (idx : Nat) : Unobserved rx (rx.scheduleFinalize idx) where
  freeSlots := by simp
  keeps i := by
    rw [Receiver.scheduleFinalize_slots]
    split
    · exact ⟨rfl, rfl, Or.inl ⟨rfl, rfl⟩⟩
    · exact .refl _
  log := ⟨[], by simp, fun _ member => absurd member List.not_mem_nil⟩

end Unobserved

/-- An unobserved change that leaves the accounts alone. -/
structure Quiet (rx rx' : Receiver) : Prop where
  unobserved : Unobserved rx rx'
  summary : SameSummary rx rx'

namespace Quiet

variable {rx rx' rx'' : Receiver}

theorem trans (first : Quiet rx rx') (second : Quiet rx' rx'') : Quiet rx rx'' where
  unobserved := first.unobserved.trans second.unobserved
  summary :=
    { freeSlots := second.summary.freeSlots.trans first.summary.freeSlots
      awaitingRelease := second.summary.awaitingRelease.trans first.summary.awaitingRelease
      finalizeList := second.summary.finalizeList.trans first.summary.finalizeList
      flows := second.summary.flows.trans first.summary.flows
      summary := second.summary.summary.trans first.summary.summary }

/-- A change of counters, control packets, neighbors or event buffers only. -/
theorem of_same (slots : rx'.slots = rx.slots) (flows : rx'.flows = rx.flows)
    (freeSlots : rx'.freeSlots = rx.freeSlots)
    (awaitingRelease : rx'.awaitingRelease = rx.awaitingRelease)
    (finalizeList : rx'.finalizeList = rx.finalizeList) (log : rx'.log = rx.log) :
    Quiet rx rx' where
  unobserved := ⟨freeSlots, fun i => slots ▸ .refl _, [], log,
    fun _ member => absurd member List.not_mem_nil⟩
  summary := ⟨freeSlots, awaitingRelease, finalizeList, flows, by
    funext i
    rw [Receiver.summary, Receiver.summary, slots]⟩

theorem refl (rx : Receiver) : Quiet rx rx :=
  of_same rfl rfl rfl rfl rfl rfl

theorem count (rx : Receiver) (counter : Counter) : Quiet rx (rx.count counter) :=
  of_same rfl rfl rfl rfl rfl rfl

theorem queueControl (rx : Receiver) (packet : Option Packet) :
    Quiet rx (rx.queueControl packet) :=
  of_same (by simp) (by simp) (by simp) (by simp) (by simp) (by simp)

theorem note (rx : Receiver) (entry : RxEntry) (ordinary : entry.Ordinary rx) :
    Quiet rx (rx.note entry) where
  unobserved := .note rx entry ordinary
  summary := ⟨rfl, rfl, rfl, rfl, rfl⟩

theorem pushEvent (rx : Receiver) (type : TcpEventType) (other : type ≠ .accepted)
    (idx : Nat) (data : List Byte) : Quiet rx (rx.pushEvent type idx data) where
  unobserved := .pushEvent rx type other idx data
  summary := ⟨rfl, rfl, rfl, rfl, rfl⟩

theorem updateSlot (rx : Receiver) (idx : Nat) {change : TcpConnection → TcpConnection}
    (kept : (rx.slots idx).Keeps (change (rx.slots idx)))
    (sameSummary : (change (rx.slots idx)).summary = (rx.slots idx).summary) :
    Quiet rx (rx.updateSlot idx change) where
  unobserved := .updateSlot rx idx kept
  summary := .updateSlot rx idx sameSummary

theorem queueAck (rx : Receiver) (idx : Nat) : Quiet rx (rx.queueAck idx) := by
  by_cases pending : (rx.slots idx).ackPending
  · rw [Receiver.queueAck, if_pos pending]
    exact refl rx
  · rw [Receiver.queueAck, if_neg pending]
    have first : Quiet rx (rx.updateSlot idx fun c => { c with ackPending := true }) :=
      updateSlot rx idx ⟨rfl, rfl, Or.inl ⟨rfl, rfl⟩⟩ rfl
    exact first.trans (of_same rfl rfl rfl rfl rfl rfl)

theorem sendRstFor (k : TcpStack) (rx : Receiver) (seg : Segment) (pool : Bool) :
    Quiet rx (sendRstFor k rx seg pool) := by
  unfold Tcp.sendRstFor
  split
  · exact refl rx
  · exact (count rx .rstSent).trans (queueControl _ _)

theorem sendSynAck (k : TcpStack) (rx : Receiver) (c : TcpConnection) (pool : Bool) :
    Quiet rx (sendSynAck k rx c pool) :=
  queueControl rx _

theorem processArp (k : TcpStack) (packet : RxPacket) (rx : Receiver) :
    Quiet rx (processArp k packet rx) := by
  unfold Tcp.processArp
  split
  · exact note rx .fault trivial
  · dsimp only
    split
    · apply Quiet.trans _ (queueControl _ _)
      exact of_same rfl rfl rfl rfl rfl rfl
    · exact of_same rfl rfl rfl rfl rfl rfl

theorem deliver (idx : Nat) (seg : Segment) (rx : Receiver) :
    Quiet rx (deliver idx seg rx) := by
  unfold Tcp.deliver
  dsimp only
  split
  · exact (pushEvent rx .data (by decide) idx _).trans
      (updateSlot _ idx ⟨rfl, rfl, Or.inl ⟨rfl, rfl⟩⟩ rfl)
  · exact refl rx

theorem takeFin (idx : Nat) (rx : Receiver) : Quiet rx (takeFin idx rx) :=
  (updateSlot rx idx ⟨rfl, rfl, Or.inl ⟨rfl, rfl⟩⟩ rfl).trans (note _ (.finConsumed idx) trivial)

end Quiet

/-! ## Specifications -/

/-- Every `open` that has begun has also reset the outbound fields. -/
def Ready (mem : Memory) : Prop :=
  ∀ i, resets i mem.tx.log = opens i mem.rx.log

theorem InStep.refl (terms : Terms) (mem : Memory) : InStep terms mem mem :=
  ⟨fun _ => SlotStep.refl _ _ _, ⟨[], rfl, fun _ member => absurd member List.not_mem_nil⟩,
    Or.inl rfl⟩

/-- What the inbound thread relies on and guarantees. -/
def inboundProtocol (terms : Terms) : Protocol Memory where
  rely := OutStep terms
  assume _ _ := True
  guarantee := InStep terms
  rely_refl := OutStep.refl terms
  rely_trans _ _ _ := OutStep.trans
  guarantee_refl := InStep.refl terms

/-- The outbound thread leaves the receiver ready. -/
theorem Ready.stable {mem later : Memory} (ready : Ready mem)
    (moves : OutStep terms mem later) : Ready later := by
  intro i
  have sameResets : resets i later.tx.log = resets i mem.tx.log := (moves.slot i).resets
  rw [sameResets, moves.rx]
  exact ready i

/-- Started with receiver state `rx`, the program keeps the protocol and ends in
a receiver state that satisfies `post`. -/
def Spec {α : Type} (terms : Terms) (rx : Receiver) (program : Code α)
    (post : α → Receiver → Prop) : Prop :=
  ∀ mem : Memory, mem.rx = rx → Ready mem →
    program.Meets (inboundProtocol terms)
      (fun value later => post value later.rx ∧ Ready later) mem

namespace Spec

variable {α β : Type} {rx : Receiver} {post : β → Receiver → Prop}

theorem done {value : β} (established : post value rx) :
    Spec terms rx (Program.done value) post := by
  rintro mem rfl ready later moves
  exact ⟨by rw [moves.rx]; exact established, ready.stable moves⟩

/-- Specifications compose. -/
theorem bind (middle : α → Receiver → Prop) {program : Code α} {rest : α → Code β}
    (first : Spec terms rx program middle)
    (second : ∀ value rx', middle value rx' → Spec terms rx' (rest value) post) :
    Spec terms rx (program >>= rest) post := by
  intro mem same ready
  refine (first mem same ready).andThen ?_
  rintro value later ⟨established, stillReady⟩
  exact second value later.rx established later rfl stillReady

theorem view {value : Receiver → α} {rest : α → Code β}
    (continues : Spec terms rx (rest (value rx)) post) :
    Spec terms rx (viewRx value >>= rest) post := by
  rintro mem rfl ready
  refine Program.meets_read_bind ?_
  intro later moves
  rw [moves.rx]
  exact continues later moves.rx (ready.stable moves)

theorem load {value : Memory → α} {rest : α → Code β}
    (continues : ∀ loaded, Spec terms rx (rest loaded) post) :
    Spec terms rx (Program.read value >>= rest) post := by
  rintro mem rfl ready
  refine Program.meets_read_bind ?_
  intro later moves
  exact continues (value later) later moves.rx (ready.stable moves)

section

variable {change : Receiver → Receiver}
include change

/-- A step on the receiver's own state. -/
theorem inbound {rest : Unit → Code β}
    (step : ∀ tx, Ready ⟨rx, tx⟩ → InStep terms ⟨rx, tx⟩ ⟨change rx, tx⟩)
    (sameOpens : ∀ i, opens i (change rx).log = opens i rx.log)
    (continues : Spec terms (change rx) (rest ()) post) :
    Spec terms rx (Tcp.inbound change >>= rest) post := by
  rintro mem rfl ready
  refine Program.meets_modify_bind ?_
  rintro ⟨_, tx⟩ moves _
  obtain rfl := moves.rx
  have readyNow := ready.stable moves
  refine ⟨step tx readyNow, continues _ rfl ?_⟩
  intro i
  exact (readyNow i).trans (sameOpens i).symm

theorem unobserved {rest : Unit → Code β} (unobserved : Unobserved rx (change rx))
    (continues : Spec terms (change rx) (rest ()) post) :
    Spec terms rx (Tcp.inbound change >>= rest) post :=
  inbound (fun tx _ => unobserved.inStep tx) unobserved.opens_eq continues

/-- A last step on the receiver's own state. -/
theorem inboundLast {post : Unit → Receiver → Prop}
    (step : ∀ tx, Ready ⟨rx, tx⟩ → InStep terms ⟨rx, tx⟩ ⟨change rx, tx⟩)
    (sameOpens : ∀ i, opens i (change rx).log = opens i rx.log)
    (established : post () (change rx)) :
    Spec terms rx (Tcp.inbound change) post := by
  change Spec terms rx (Tcp.inbound change >>= Program.done) post
  exact inbound step sameOpens (done established)

theorem unobservedLast {post : Unit → Receiver → Prop} (unobserved : Unobserved rx (change rx))
    (established : post () (change rx)) : Spec terms rx (Tcp.inbound change) post :=
  inboundLast (fun tx _ => unobserved.inStep tx) unobserved.opens_eq established

theorem quiet (quiet : Quiet rx (change rx)) :
    Spec terms rx (Tcp.inbound change) fun _ rx' => Quiet rx rx' :=
  unobservedLast quiet.unobserved quiet

end

theorem accounted {k : TcpStack} {change : Receiver → Receiver} (accounts : Accounting k rx)
    (quiet : Quiet rx (change rx)) : Spec terms rx (Tcp.inbound change) fun _ rx' =>
    Accounting k rx' :=
  unobservedLast quiet.unobserved (accounts.congr quiet.summary)

theorem when {condition : Bool} {program : Code Unit} {post : Unit → Receiver → Prop}
    (taken : condition = true → Spec terms rx program post)
    (skipped : condition = false → post () rx) :
    Spec terms rx (Program.when condition program) post := by
  cases condition with
  | true => exact taken rfl
  | false => exact done (skipped rfl)

end Spec

/-- A step that changes one slot and nothing else. -/
theorem InStep.updateSlot {rx : Receiver} {tx : Sender} {idx : Nat}
    {change : TcpConnection → TcpConnection}
    (step : SlotStep terms idx (Memory.view ⟨rx, tx⟩ idx)
      { Memory.view ⟨rx, tx⟩ idx with conn := change (rx.slots idx) }) :
    InStep terms ⟨rx, tx⟩ ⟨rx.updateSlot idx change, tx⟩ where
  slot i := by
    by_cases same : i = idx
    · subst same
      simpa [Memory.view] using step
    · simpa [Memory.view, same] using SlotStep.refl terms i (Memory.view ⟨rx, tx⟩ i)
  logged := ⟨⟨[], rfl, fun _ member => absurd member List.not_mem_nil⟩, Or.inl rfl⟩

/-- The load of `snd_nxt` in `process_ack`: nothing is known about the value but
that the ACK is not beyond it if it is recorded. -/
theorem Spec.checkAck {β : Type} {rx : Receiver} {idx : Nat} {seg : Segment}
    {rest : AckCheck → Code β} {post : β → Receiver → Prop}
    (accepted : (rx.slots idx).state.accepted = true)
    (admitted : terms.acks (rx.slots idx).identity seg.ack)
    (refused : ∀ sndNxt, Spec terms ((rx.queueAck idx).note (.ackRefused idx seg.ack sndNxt))
      (rest .refused) post)
    (recorded : ∀ sndNxt, Spec terms (rx.updateSlot idx (recordAck seg))
      (rest (.recorded sndNxt (ackChanges seg (rx.slots idx)))) post) :
    Spec terms rx (Tcp.checkAck idx seg >>= rest) post := by
  rintro mem rfl ready
  refine Program.meets_atomically_bind ?_
  rintro ⟨_, tx⟩ moves _
  obtain rfl := moves.rx
  have readyNow := ready.stable moves
  dsimp only
  cases beyond : seqGt seg.ack (tx.slots idx).sndNxt with
  | true =>
      have unobserved : Unobserved mem.rx ((mem.rx.queueAck idx).note
          (.ackRefused idx seg.ack (tx.slots idx).sndNxt)) :=
        ((Quiet.queueAck mem.rx idx).trans
          (.note _ (.ackRefused idx seg.ack (tx.slots idx).sndNxt) trivial)).unobserved
      refine ⟨unobserved.inStep tx, refused _ _ rfl ?_⟩
      intro i
      exact (readyNow i).trans (unobserved.opens_eq i).symm
  | false =>
      exact ⟨.updateSlot (.record seg accepted admitted beyond), recorded _ _ rfl readyNow⟩

/-! ## Programs on one connection -/

section Connection

variable {k : TcpStack} {rx : Receiver} {idx : Nat}

/-- A connection ends: it is scheduled for `finalize`, once. -/
theorem terminate_spec (accounts : Accounting k rx) (inside : idx < k.maxConnections)
    (accepted : (rx.slots idx).state.accepted = true)
    (unfinished : (rx.slots idx).state ≠ .closed) {why : TcpEventType}
    (other : why ≠ .accepted) :
    Spec terms rx (terminate idx why) fun _ rx' => Accounting k rx' := by
  have live : (rx.summary idx).place = .live := by
    refine (rx.slots idx).place_eq_live_iff.mpr ⟨?_, unfinished⟩
    rintro free
    rw [free] at accepted
    cases accepted
  have unscheduled := accounts.unscheduled inside unfinished
  refine Spec.unobserved (.updateSlot rx idx ⟨rfl, rfl, Or.inr ⟨accepted, rfl, fun _ => rfl⟩⟩) ?_
  refine Spec.unobservedLast
    ((Unobserved.pushEvent _ why other idx []).trans (.scheduleFinalize _ idx)) ?_
  unfold Accounting
  rw [Receiver.summary_scheduleFinalize, Receiver.scheduleFinalize_finalizeList]
  · have moved := accounts.schedule
      { (rx.slots idx).summary with closed := true, free := false, finalizePending := true }
      inside live rfl rfl
    simpa [TcpConnection.summary] using moved
  · simpa using unscheduled

/-- A change of state among those of an accepted, unfinished connection. -/
theorem Quiet.setState (rx : Receiver) (idx : Nat) (state : TcpState)
    (before : (rx.slots idx).state.accepted = true) (unfinished : (rx.slots idx).state ≠ .closed)
    (after : state.accepted = true) (unfinishedToo : state ≠ .closed) :
    Quiet rx (rx.updateSlot idx fun c => { c with state := state }) := by
  refine .updateSlot rx idx ⟨rfl, rfl, Or.inr ⟨before, after, id⟩⟩ ?_
  have unfree : ∀ {state : TcpState}, state.accepted = true → state ≠ .free := by
    rintro _ accepted rfl
    cases accepted
  simp only [TcpConnection.summary, unfree before, unfinished, unfree after, unfinishedToo]

/-- The peer's FIN ends the connection or moves it on. -/
theorem consumeFin_spec (accounts : Accounting k rx) (inside : idx < k.maxConnections)
    (receives : (rx.slots idx).state.canReceive = true) :
    Spec terms rx (consumeFin idx) fun _ rx' => Accounting k rx' := by
  have taken := Quiet.takeFin idx rx
  have sameState : ((takeFin idx rx).slots idx).state = (rx.slots idx).state := by
    simp [takeFin]
  refine Spec.view ?_
  cases state : (rx.slots idx).state with
  | established =>
      rw [state] at sameState
      have moved := taken.trans (Quiet.setState _ idx .closeWait
        (by rw [sameState]; rfl) (by rw [sameState]; decide) rfl (by decide))
      have quiet := moved.trans (Quiet.pushEvent _ .peerClosed (by decide) idx [])
      exact .accounted accounts quiet
  | finWait1 =>
      rw [state] at sameState
      have quiet := taken.trans (Quiet.setState _ idx .closing
        (by rw [sameState]; rfl) (by rw [sameState]; decide) rfl (by decide))
      exact .accounted accounts quiet
  | finWait2 =>
      rw [state] at sameState
      refine Spec.unobserved taken.unobserved ?_
      exact terminate_spec (accounts.congr taken.summary) inside (by rw [sameState]; rfl)
        (by rw [sameState]; decide) (by decide)
  | _ =>
      rw [state] at receives
      cases receives

/-- Data and the peer's FIN. -/
theorem processData_spec (accounts : Accounting k rx) (inside : idx < k.maxConnections)
    (seg : Segment) : Spec terms rx (processData idx seg) fun _ rx' => Accounting k rx' := by
  refine Spec.view ?_
  split
  · refine Spec.when (fun _ => ?_) fun _ => accounts
    have quiet := Quiet.queueAck rx idx
    exact .accounted accounts quiet
  · rename_i receives
    split
    · exact Spec.done accounts
    · split
      · have quiet := (Quiet.count rx .outOfOrder).trans (.queueAck _ idx)
        exact .accounted accounts quiet
      · have delivered := (Quiet.deliver idx seg rx).trans (.queueAck _ idx)
        have delivers := accounts.congr delivered.summary
        refine Spec.unobserved delivered.unobserved (Spec.view ?_)
        refine Spec.bind (fun _ rx' => Accounting k rx') ?_ ?_
        · refine Spec.when (fun _ => ?_) fun _ => delivers
          refine consumeFin_spec delivers inside ?_
          simpa [deliver_state] using receives
        · intro _ rx' accounts'
          have quiet : Quiet rx' (rx'.updateSlot idx fun c =>
              { c with rcvNxt := c.rcvNxtLocal }) :=
            .updateSlot rx' idx ⟨rfl, rfl, Or.inl ⟨rfl, rfl⟩⟩ rfl
          exact .accounted accounts' quiet

/-- `sync_out_flags` moves a connection among the states of an unfinished one. -/
theorem syncOutFlags_spec (rx : Receiver) (idx : Nat) :
    Spec terms rx (syncOutFlags idx) fun _ rx' => Quiet rx rx' := by
  refine Spec.load fun out => Spec.when (fun _ => Spec.quiet ?_) fun _ => .refl rx
  cases state : (rx.slots idx).state with
  | established =>
      refine .updateSlot rx idx ⟨?_, ?_, Or.inr ?_⟩ ?_ <;>
        simp [state, TcpConnection.identity, TcpConnection.numbers, TcpState.accepted,
          TcpConnection.summary]
  | closeWait =>
      refine .updateSlot rx idx ⟨?_, ?_, Or.inr ?_⟩ ?_ <;>
        simp [state, TcpConnection.identity, TcpConnection.numbers, TcpState.accepted,
          TcpConnection.summary]
  | _ =>
      refine .updateSlot rx idx ⟨?_, ?_, Or.inl ?_⟩ ?_ <;> simp [state]

theorem recordAck_summary (seg : Segment) (c : TcpConnection) :
    (recordAck seg c).summary = c.summary := by
  obtain ⟨una, wnd, wl1, wl2, equal⟩ := recordAck_eq seg c
  rw [equal]
  rfl

theorem recordAck_identity (seg : Segment) (c : TcpConnection) :
    (recordAck seg c).identity = c.identity := by
  obtain ⟨una, wnd, wl1, wl2, same⟩ := recordAck_eq seg c
  rw [same]
  rfl

theorem recordAck_state (seg : Segment) (c : TcpConnection) :
    (recordAck seg c).state = c.state := by
  obtain ⟨una, wnd, wl1, wl2, equal⟩ := recordAck_eq seg c
  rw [equal]

/-- The window is published for accepted connections only. -/
theorem publishWindow_spec (accounts : Accounting k rx)
    (accepted : (rx.slots idx).state.accepted = true) :
    Spec terms rx (publishWindow idx) fun _ rx' =>
      Accounting k rx' ∧ (rx'.slots idx).state = (rx.slots idx).state := by
  refine Spec.inboundLast (fun tx _ => .updateSlot (.publish accepted)) (fun _ => rfl) ?_
  exact ⟨accounts.congr (.updateSlot rx idx rfl), by simp⟩

/-- Where the state machine stands after an ACK, as far as accounting goes. -/
theorem processAck_spec (accounts : Accounting k rx) (inside : idx < k.maxConnections)
    (accepted : (rx.slots idx).state.accepted = true) {seg : Segment}
    (admitted : terms.acks (rx.slots idx).identity seg.ack) :
    Spec terms rx (processAck idx seg) fun _ rx' => Accounting k rx' := by
  refine Spec.load fun out => Spec.checkAck accepted admitted ?_ ?_
  · intro sndNxt
    have quiet := (Quiet.queueAck rx idx).trans
      (.note _ (.ackRefused idx seg.ack sndNxt) trivial)
    exact Spec.done (accounts.congr quiet.summary)
  · intro sndNxt
    have sameState : ((rx.updateSlot idx (recordAck seg)).slots idx).state =
        (rx.slots idx).state := by simp [recordAck_state]
    have recorded : Accounting k (rx.updateSlot idx (recordAck seg)) :=
      accounts.congr (.updateSlot rx idx (recordAck_summary seg _))
    refine Spec.bind (fun _ rx' => Accounting k rx' ∧
      (rx'.slots idx).state = (rx.slots idx).state) ?_ ?_
    · refine Spec.when (fun _ => ?_) fun _ => ⟨recorded, sameState⟩
      rw [← sameState]
      exact publishWindow_spec recorded (by rw [sameState]; exact accepted)
    · rintro _ rx' ⟨accounts', same⟩
      rw [finishAck]
      split
      · refine Spec.view ?_
        cases state : (rx'.slots idx).state with
        | finWait1 =>
            have quiet := Quiet.setState rx' idx .finWait2 (by rw [state]; rfl)
              (by rw [state]; decide) rfl (by decide)
            exact Spec.unobserved quiet.unobserved (Spec.done (accounts'.congr quiet.summary))
        | closing | lastAck =>
            refine Spec.bind (fun _ rx'' => Accounting k rx'') ?_ fun _ _ => Spec.done
            exact terminate_spec accounts' inside (by rw [state]; rfl) (by rw [state]; decide)
              (by decide)
        | _ => exact Spec.done accounts'
      · exact Spec.done accounts'

/-- The whole path of a segment to an accepted connection. -/
theorem processSynchronized_spec (accounts : Accounting k rx) (inside : idx < k.maxConnections)
    (accepted : (rx.slots idx).state.accepted = true)
    (unfinished : (rx.slots idx).state ≠ .closed) {seg : Segment}
    (admitted : terms.acks (rx.slots idx).identity seg.ack) :
    Spec terms rx (processSynchronized k idx seg) fun _ rx' => Accounting k rx' := by
  refine Spec.view ?_
  split
  · refine Spec.when (fun _ => ?_) fun _ => accounts
    have quiet := Quiet.count rx .rstReceived
    refine Spec.unobserved quiet.unobserved ?_
    exact terminate_spec (accounts.congr quiet.summary) inside accepted unfinished (by decide)
  · split
    · have quiet := Quiet.queueAck rx idx
      exact .accounted accounts quiet
    · split
      · exact Spec.done accounts
      · refine Spec.bind (fun _ rx' => Accounting k rx')
          (processAck_spec accounts inside accepted admitted) ?_
        intro proceed rx' accounts'
        exact Spec.when (fun _ => processData_spec accounts' inside seg) fun _ => accounts'

theorem Receiver.eraseFlow_of_erase {erased : FlowTable}
    (success : rx.flows.erase (rx.flowKey idx) = some erased) :
    rx.eraseFlow idx = { rx with flows := erased } := by
  simp [Receiver.eraseFlow, success]

/-- A slot comes back to the free list and nothing else changes for the other
thread. -/
theorem InStep.releaseSlot {rx rx' : Receiver} {tx : Sender} {idx : Nat}
    (others : ∀ i, i ≠ idx → rx'.slots i = rx.slots i) (log : rx'.log = rx.log)
    (freeSlots : rx'.freeSlots = idx :: rx.freeSlots)
    (step : SlotStep terms idx (Memory.view ⟨rx, tx⟩ idx)
      { Memory.view ⟨rx, tx⟩ idx with conn := rx'.slots idx, listed := true }) :
    InStep terms ⟨rx, tx⟩ ⟨rx', tx⟩ where
  slot i := by
    by_cases same : i = idx
    · subst same
      simpa [Memory.view, log, freeSlots] using step
    · simpa [Memory.view, log, freeSlots, same, others i same] using
        SlotStep.refl terms i (Memory.view ⟨rx, tx⟩ i)
  logged := ⟨⟨[], log, fun _ member => absurd member List.not_mem_nil⟩, Or.inl rfl⟩

/-- A reset during the handshake gives the slot back. -/
theorem abort_spec (accounts : Accounting k rx) (inside : idx < k.maxConnections)
    (state : (rx.slots idx).state = .synReceived) :
    Spec terms rx (inbound fun rx => ((rx.count .rstReceived).eraseFlow idx).releaseSlot idx)
      fun _ rx' => Accounting k rx' := by
  have live : (rx.summary idx).place = .live :=
    (rx.slots idx).place_eq_live_iff.mpr (by simp [state])
  obtain ⟨erased, success, agree⟩ := accounts.abort
    { (rx.slots idx).summary with free := true, closed := false, finalizePending := false }
    inside live rfl rfl
  have flowErased : (rx.count .rstReceived).eraseFlow idx =
      { rx.count .rstReceived with flows := erased } := Receiver.eraseFlow_of_erase success
  refine Spec.inboundLast ?_ ?_ ?_
  · intro tx ready
    rw [flowErased]
    refine .releaseSlot ?_ rfl rfl ?_
    · intro i different
      simp [different]
    · exact .abort state (ready idx) (by simp [TcpConnection.identity, Memory.view]) (by simp)
  · intro i
    rw [flowErased]
    rfl
  · rw [flowErased]
    unfold Accounting
    rw [Receiver.summary_releaseSlot]
    exact agree

/-- The `accepted` event, together with the state change. -/
theorem InStep.accept {rx : Receiver} {tx : Sender} {idx : Nat}
    (step : SlotStep terms idx (Memory.view ⟨rx, tx⟩ idx)
      { Memory.view ⟨rx, tx⟩ idx with
        conn := { rx.slots idx with state := .established }, taken := true }) :
    InStep terms ⟨rx, tx⟩
      ⟨(rx.updateSlot idx fun c => { c with state := .established }).pushEvent
        .accepted idx [], tx⟩ where
  slot i := by
    by_cases same : i = idx
    · subst same
      simpa [Memory.view, opens_cons_of_ne, acceptedSince_cons_of_ne, RxEntry.accepts,
        Receiver.makeEvent] using step
    · have other : (idx == i) = false := by simpa using Ne.symm same
      simpa [Memory.view, opens_cons_of_ne, acceptedSince_cons_of_ne, RxEntry.accepts,
        Receiver.makeEvent, same, other] using SlotStep.refl terms i (Memory.view ⟨rx, tx⟩ i)
  logged := by
    refine ⟨⟨[_], rfl, ?_⟩, Or.inl rfl⟩
    intro event member
    obtain rfl := RxEntry.event.inj (List.mem_singleton.mp member)
    simp [Receiver.makeEvent, acceptedSince_cons_of_ne, RxEntry.accepts]

/-- The whole path of a segment during the handshake. -/
theorem processHandshake_spec (accounts : Accounting k rx) (inside : idx < k.maxConnections)
    (state : (rx.slots idx).state = .synReceived) (seg : Segment) (pool : Bool) :
    Spec terms rx (processHandshake k idx seg pool) fun _ rx' => Accounting k rx' := by
  refine Spec.view ?_
  split
  · exact Spec.when (fun _ => abort_spec accounts inside state) fun _ => accounts
  · split
    · refine Spec.when (fun _ => ?_) fun _ => accounts
      have quiet := Quiet.sendSynAck k rx (rx.slots idx) pool
      exact .accounted accounts quiet
    · split
      · exact Spec.done accounts
      · split
        · have quiet := Quiet.sendRstFor k rx seg pool
          exact .accounted accounts quiet
        · rename_i acknowledged
          have expected : seg.ack = (rx.slots idx).iss + 1 := by simpa using acknowledged
          have small : (seg.window.setWidth 32).toNat < 65536 := by
            rw [BitVec.toNat_setWidth]
            have bound := seg.window.isLt
            omega
          have confirmed : SameSummary rx (rx.updateSlot idx (firstAck seg)) :=
            .updateSlot rx idx rfl
          refine Spec.inbound (fun tx _ => .updateSlot (.prepare state rfl state))
            (fun _ => rfl) ?_
          refine Spec.inbound ?_ ?_ (processData_spec ?_ inside seg)
          · intro tx ready
            refine .accept (.accept ?_ (ready idx) rfl rfl ?_ ?_ ?_)
            · simpa [Memory.view, firstAck] using state
            · simpa [firstAck] using expected
            · simpa [firstAck] using small
            · simp [firstAck]
          · intro i
            simp [opens_cons_of_ne]
          · refine (accounts.congr confirmed).congr ?_
            refine ⟨rfl, rfl, rfl, rfl, ?_⟩
            simp [TcpConnection.summary, firstAck, state]

/-- A segment of a connection keeps the slot accounting, whatever the other thread does. -/
theorem processSegment_spec (accounts : Accounting k rx) (inside : idx < k.maxConnections)
    {seg : Segment} (admitted : terms.acks (rx.slots idx).identity seg.ack) (pool : Bool) :
    Spec terms rx (processSegment k idx seg pool) fun _ rx' => Accounting k rx' := by
  refine Spec.bind _ (syncOutFlags_spec rx idx) ?_
  intro _ rx' quiet
  have accounts' := accounts.congr quiet.summary
  refine Spec.view ?_
  cases state : (rx'.slots idx).state with
  | free | closed => exact Spec.done accounts'
  | synReceived => exact processHandshake_spec accounts' inside state seg pool
  | _ =>
      exact processSynchronized_spec accounts' inside (by rw [state]; rfl)
        (by rw [state]; decide) (by rw [(quiet.unobserved.keeps idx).identity]; exact admitted)

end Connection

/-! ## Opening a connection -/

/-- `open` has stored the new generation of a slot and not yet reset its
outbound fields. -/
structure Opening (idx : Nat) (mem : Memory) : Prop where
  state : (mem.rx.slots idx).state = .synReceived
  unready : ∀ i, resets i mem.tx.log + (if i = idx then 1 else 0) = opens i mem.rx.log

namespace Opening

variable {β : Type} {idx : Nat} {mem later : Memory} {post : β → Memory → Prop}

/-- The outbound thread leaves a slot alone that is being opened. -/
theorem stable (opening : Opening idx mem) (moves : OutStep terms mem later) :
    Opening idx later where
  state := by
    rw [moves.rx]
    exact opening.state
  unready i := by
    have sameResets : resets i later.tx.log = resets i mem.tx.log := (moves.slot i).resets
    rw [sameResets, moves.rx]
    exact opening.unready i

theorem untouched (opening : Opening idx mem) (moves : OutStep terms mem later)
    (guarded : terms.guarded idx) : later.tx.slots idx = mem.tx.slots idx := by
  rcases (moves.slot idx).out guarded with same | ⟨accepted, _⟩
  · exact same
  · have state : (mem.view idx).conn.state = .synReceived := opening.state
    rw [state] at accepted
    cases accepted

/-- A store to the inbound-written part of the slot. -/
theorem prepare {change : TcpConnection → TcpConnection} {rest : Unit → Code β}
    (opening : Opening idx mem)
    (identity : ∀ c, (change c).identity = c.identity) (state : ∀ c, (change c).state = c.state)
    (continues : ∀ tx, Opening idx ⟨mem.rx.updateSlot idx change, tx⟩ →
      (rest ()).Meets (inboundProtocol terms) post ⟨mem.rx.updateSlot idx change, tx⟩) :
    ((inbound fun rx => rx.updateSlot idx change) >>= rest).Meets (inboundProtocol terms) post
      mem := by
  refine Program.meets_modify_bind ?_
  rintro ⟨_, tx⟩ moves _
  obtain rfl := moves.rx
  have still := opening.stable moves
  refine ⟨.updateSlot (.prepare still.state (identity _) ((state _).trans still.state)),
    continues tx ⟨?_, still.unready⟩⟩
  simpa [state] using still.state

/-- The stores to the outbound fields, after which the slot is ready. -/
theorem reset {rest : Unit → Code β} (opening : Opening idx mem) {base : BitVec 32}
    (iss : (mem.rx.slots idx).iss + 1 = base)
    (continues : ∀ tx, Ready ⟨mem.rx, tx⟩ →
      (rest ()).Meets (inboundProtocol terms) post ⟨mem.rx, tx⟩) :
    (storeSndNxt idx base >>= fun _ =>
      (outbound fun tx => (tx.updateSlot idx fun fields =>
        { fields with outFlags := 0 }).note (.opened idx)) >>= rest).Meets
          (inboundProtocol terms) post
      mem := by
  subst iss
  refine Program.meets_modify_bind ?_
  rintro ⟨_, tx⟩ moves _
  obtain rfl := moves.rx
  have first := opening.stable moves
  refine ⟨⟨?_, ⟨[], rfl, fun _ member => absurd member List.not_mem_nil⟩, Or.inl rfl⟩, ?_⟩
  · intro i
    by_cases same : i = idx
    · subst same
      simpa [Memory.view] using SlotStep.resetNxt first.state
    · simpa [Memory.view, same] using SlotStep.refl terms i (Memory.view ⟨mem.rx, tx⟩ i)
  · refine Program.meets_modify_bind ?_
    rintro ⟨_, tx'⟩ moves' _
    obtain rfl := moves'.rx
    have opening' : Opening idx ⟨mem.rx, tx.updateSlot idx fun fields =>
        { fields with sndNxt := (mem.rx.slots idx).iss + 1 }⟩ := ⟨first.state, first.unready⟩
    have second := opening'.stable moves'
    have stored : terms.guarded idx →
        (tx'.slots idx).sndNxt = (mem.rx.slots idx).iss + 1 := by
      intro guarded
      rw [opening'.untouched moves' guarded]
      simp
    have unready := second.unready idx
    rw [if_pos rfl] at unready
    refine ⟨⟨?_, ⟨[], rfl, fun _ member => absurd member List.not_mem_nil⟩,
      Or.inr ⟨idx, rfl⟩⟩, continues _ ?_⟩
    · intro i
      by_cases same : i = idx
      · subst same
        simpa [Memory.view, resets_cons_self, wire, txSince_cons_self] using
          SlotStep.resetFlags second.state unready stored
      · simpa [Memory.view, same, Ne.symm same, resets_cons_of_ne, wire, txSince_cons_of_ne]
          using SlotStep.refl terms i (Memory.view ⟨mem.rx, tx'⟩ i)
    · intro i
      by_cases same : i = idx
      · subst same
        simpa [resets_cons_self] using unready
      · simpa [resets_cons_of_ne, same, Ne.symm same] using second.unready i

end Opening

section Packet

variable {k : TcpStack} {rx : Receiver} {idx : Nat}

/-- The store of the generation. -/
theorem InStep.opening {tx : Sender} {rest : List Nat} {change : TcpConnection → TcpConnection}
    (free : (rx.slots idx).state = .free) (ready : Ready ⟨rx, tx⟩)
    (nodup : rx.freeSlots.Nodup) (first : rx.freeSlots = idx :: rest)
    (state : (change (rx.slots idx)).state = .synReceived)
    (generation : (change (rx.slots idx)).generation =
      nextGeneration (rx.slots idx).generation)
    (mss : (change (rx.slots idx)).sendMss ≠ 0) :
    InStep terms ⟨rx, tx⟩
      ⟨({ rx with freeSlots := rx.freeSlots.tail }.updateSlot idx change).note (.opened idx),
        tx⟩ where
  slot i := by
    rw [first, List.nodup_cons] at nodup
    by_cases same : i = idx
    · subst same
      have listed : (Memory.view ⟨rx, tx⟩ i).listed = true := by simp [Memory.view, first]
      simpa [Memory.view, opens_cons_self, acceptedSince_cons_self, first, nodup.1] using
        SlotStep.opening free listed (ready i) state generation mss
    · simpa [Memory.view, opens_cons_of_ne, acceptedSince_cons_of_ne, RxEntry.accepts, same,
        Ne.symm same, first] using SlotStep.refl terms i (Memory.view ⟨rx, tx⟩ i)
  logged := ⟨⟨[.opened idx], rfl, by simp⟩, Or.inl rfl⟩

/-- The flow entry and the SYN-ACK. -/
theorem enterFlow_spec (inserted : FlowTable)
    (success : rx.flows.insert (rx.flowKey idx) idx = some inserted)
    (agree : ListsAgree k.maxConnections rx.freeSlots rx.awaitingRelease rx.finalizeList inserted
      rx.summary) (pool : Bool) :
    Spec terms rx (inbound fun rx => sendSynAck k (rx.insertFlow idx) (rx.slots idx) pool)
      fun _ rx' => Accounting k rx' := by
  have entered : rx.insertFlow idx = { rx with flows := inserted } := by
    simp [Receiver.insertFlow, success]
  have entry : Unobserved rx { rx with flows := inserted } :=
    ⟨rfl, fun _ => .refl _, [], rfl, fun _ member => absurd member List.not_mem_nil⟩
  have reply := Quiet.sendSynAck k { rx with flows := inserted } (rx.slots idx) pool
  refine Spec.unobservedLast ?_ ?_
  · rw [entered]
    exact entry.trans reply.unobserved
  · rw [entered]
    have accounts : Accounting k { rx with flows := inserted } := agree
    exact accounts.congr reply.summary

theorem initialized_sendMss_ne_zero (k : TcpStack) (seg : Segment) {peerMss : BitVec 16}
    (rand : BitVec 64) (c : TcpConnection) (nonzero : peerMss ≠ 0) :
    (initialized k seg peerMss rand c).sendMss ≠ 0 := by
  simp only [initialized]
  split
  · exact nonzero
  · exact k.mss_ne_zero

/-- A connection is opened: its slot leaves the free list and enters the flow table. -/
theorem openSlot_spec (accounts : Accounting k rx) {rest : List Nat}
    (first : rx.freeSlots = idx :: rest) (seg : Segment) {peerMss : BitVec 16}
    (nonzero : peerMss ≠ 0) (rand : BitVec 64) (pool : Bool)
    (fresh : ∀ i < k.maxConnections, (rx.summary i).InFlow →
      (rx.summary i).key ≠ FlowTable.key seg.srcIp seg.srcPort seg.dstPort) :
    Spec terms rx (openSlot k idx seg peerMss rand pool) fun _ rx' => Accounting k rx' := by
  unfold Accounting at accounts
  rw [first] at accounts
  obtain ⟨inserted, success, agree⟩ := accounts.openFree
    ⟨false, false, false, FlowTable.key seg.srcIp seg.srcPort seg.dstPort⟩ rfl rfl
    (FlowTable.key_ne_zero seg.srcIp_ne_zero _ _) fresh
  obtain ⟨_, place⟩ := (accounts.free.mem_iff idx).mp List.mem_cons_self
  have free := (rx.slots idx).place_eq_free_iff.mp place
  refine Spec.view ?_
  rintro mem rfl ready
  refine Program.meets_modify_bind ?_
  rintro ⟨_, tx⟩ moves _
  obtain rfl := moves.rx
  have ready' := ready.stable moves
  refine ⟨.opening free ready' (first ▸ accounts.free.nodup) first rfl rfl
    (initialized_sendMss_ne_zero k seg rand (mem.rx.slots idx) nonzero), ?_⟩
  have opening : Opening idx ⟨({ mem.rx with freeSlots := mem.rx.freeSlots.tail
      }.updateSlot idx fun c => { initialized k seg peerMss rand c with
        generation := nextGeneration (mem.rx.slots idx).generation }).note (.opened idx),
      tx⟩ := by
    refine ⟨by simp [initialized], fun i => ?_⟩
    by_cases same : i = idx
    · subst same
      simpa [opens_cons_self] using ready' i
    · simpa [opens_cons_of_ne, same, Ne.symm same] using ready' i
  refine opening.prepare (fun _ => rfl) (fun _ => rfl) ?_
  intro tx opening
  refine opening.prepare (fun _ => rfl) (fun _ => rfl) ?_
  intro tx opening
  refine opening.prepare (fun _ => rfl) (fun _ => rfl) ?_
  intro tx opening
  refine opening.reset (by simp [initialized]) ?_
  intro tx ready
  refine enterFlow_spec inserted ?_ ?_ pool _ rfl ready
  · simpa [Receiver.flowKey, initialized] using success
  · have popped : Receiver.summary { mem.rx with freeSlots := rest } = mem.rx.summary := rfl
    simpa [initialized, TcpConnection.summary, first, popped] using agree

/-- A SYN without a connection. -/
theorem openConnection_spec (accounts : Accounting k rx) (seg : Segment)
    (rand : BitVec 64) (pool : Bool)
    (fresh : ∀ i < k.maxConnections, (rx.summary i).InFlow →
      (rx.summary i).key ≠ FlowTable.key seg.srcIp seg.srcPort seg.dstPort) :
    Spec terms rx (openConnection k seg rand pool) fun _ rx' => Accounting k rx' := by
  refine Spec.view ?_
  cases slots : rx.freeSlots with
  | nil =>
      have quiet := (Quiet.count rx .noFreeSlot).trans (.sendRstFor k _ seg pool)
      exact .accounted accounts quiet
  | cons idx rest =>
      cases parsed : parseMssOption seg.options with
      | none =>
          have quiet := Quiet.note rx .fault trivial
          exact .accounted accounts quiet
      | some peerMss =>
          exact openSlot_spec accounts slots seg (parseMssOption_ne_zero parsed) rand pool fresh

/-- What a segment finds in the flow table is its connection, or it has none. -/
theorem processTcp_spec (accounts : Accounting k rx) {seg : Segment}
    (admitted : ∀ i, FlowTable.key (rx.slots i).peerIp (rx.slots i).peerPort
      (rx.slots i).localPort = FlowTable.key seg.srcIp seg.srcPort seg.dstPort →
        terms.acks (rx.slots i).identity seg.ack) (rand : BitVec 64) (pool : Bool) :
    Spec terms rx (processTcp k seg rand pool) fun _ rx' => Accounting k rx' := by
  have small : k.maxConnections ≤ FlowTable.npos :=
    Nat.le_trans (Nat.le_of_lt k.maxConnections_lt) (by decide)
  refine Spec.view ?_
  rcases accounts.flows.find small (FlowTable.key_ne_zero seg.srcIp_ne_zero seg.srcPort
    seg.dstPort) with ⟨idx, found, known, inside, _, named⟩ | ⟨absent, fresh⟩
  · rw [found]
    dsimp only
    rw [if_pos (bne_iff_ne.mpr known)]
    exact processSegment_spec accounts inside (admitted idx named) pool
  · rw [absent]
    dsimp only
    rw [if_neg (by simp)]
    split
    · exact openConnection_spec accounts seg rand pool fresh
    · have quiet := Quiet.sendRstFor k rx seg pool
      exact .accounted accounts quiet

/-- Processing a packet keeps the protocol and the accounts. -/
theorem process_spec (accounts : Accounting k rx) (packet : RxPacket)
    (admitted : ∀ seg, decode k packet.frame packet.contiguous = some (.segment seg) →
      ∀ i, FlowTable.key (rx.slots i).peerIp (rx.slots i).peerPort (rx.slots i).localPort =
        FlowTable.key seg.srcIp seg.srcPort seg.dstPort →
          terms.acks (rx.slots i).identity seg.ack) :
    Spec terms rx (process k packet) fun _ rx' => Accounting k rx' := by
  unfold process
  split
  · have quiet := Quiet.note rx .fault trivial
    exact .accounted accounts quiet
  · exact Spec.done accounts
  · have quiet := Quiet.count rx ‹Counter›
    exact .accounted accounts quiet
  · have quiet := Quiet.processArp k packet rx
    exact .accounted accounts quiet
  · rename_i decoded
    exact processTcp_spec accounts (admitted _ decoded) packet.rand packet.pool

end Packet

/-! ## The start and the end of a poll -/

section Poll

variable {k : TcpStack} {rx : Receiver} {idx : Nat}

/-- A slot is released only if the flag that was loaded says so; the outbound
thread does not take it back. -/
theorem Spec.ifReleased {β : Type} {change : Receiver → Receiver} {rest : Unit → Code β}
    {held : Code β} {post : β → Receiver → Prop}
    (step : ∀ tx, (terms.guarded idx → hasReleased (tx.slots idx).outFlags = true) →
      InStep terms ⟨rx, tx⟩ ⟨change rx, tx⟩)
    (sameLog : (change rx).log = rx.log)
    (whenReleased : Spec terms (change rx) (rest ()) post) (whenHeld : Spec terms rx held post) :
    Spec terms rx (loadOutFlags idx >>= fun out =>
      if hasReleased out then Tcp.inbound change >>= rest else held) post := by
  rintro mem rfl ready
  refine Program.meets_read_bind ?_
  intro later moves
  have readyLater := ready.stable moves
  split
  · rename_i released
    refine Program.meets_modify_bind ?_
    rintro ⟨_, tx⟩ moves' _
    obtain rfl := moves'.rx.trans moves.rx
    have still : terms.guarded idx → hasReleased (tx.slots idx).outFlags = true :=
      fun guarded => (moves'.slot idx).released guarded released
    refine ⟨step tx still, whenReleased _ rfl ?_⟩
    intro i
    exact (readyLater.stable moves' i).trans (congrArg (opens i) sameLog.symm)
  · exact whenHeld later moves.rx readyLater

/-- Reaping moves released slots from one list to the other, by induction over the fuel. -/
theorem reapLoop_spec (fuel i : Nat) (accounts : Accounting k rx) :
    Spec terms rx (reapLoop fuel i) fun _ rx' => Accounting k rx' := by
  induction fuel generalizing i rx with
  | zero =>
      have quiet := Quiet.note rx .fault trivial
      exact .accounted accounts quiet
  | succ fuel ih =>
      refine Spec.view ?_
      cases found : rx.awaitingRelease[i]? with
      | none => exact Spec.done accounts
      | some idx =>
          have taken := perm_swapRemove found
          have member := (accounts.awaiting.mem_iff idx).mp (taken.mem_iff.mpr List.mem_cons_self)
          have closed := ((rx.slots idx).place_eq_awaiting_iff.mp member.2).1
          refine Spec.ifReleased ?_ rfl (ih i ?_) (ih (i + 1) accounts)
          · intro tx released
            refine .releaseSlot ?_ rfl rfl ?_
            · intro i different
              simp [different]
            · exact .release closed released (by simp [TcpConnection.identity, Memory.view])
                (by simp)
          · have agree := accounts.reap
              { (rx.slots idx).summary with
                free := true
                closed := false
                finalizePending := false }
              taken rfl rfl rfl
            unfold Accounting
            rw [← Receiver.summary_releaseSlot] at agree
            exact agree

/-- The ACKs that are due change nothing that the slot accounting depends on. -/
theorem flushAcks_spec (accounts : Accounting k rx) (ackPool : Nat → Bool) :
    Spec terms rx (flushAcks k ackPool) fun _ rx' => Accounting k rx' := by
  refine Spec.view ?_
  refine Spec.bind (fun _ rx' => Accounting k rx') ?_ ?_
  · generalize rx.ackList.zipIdx = entries
    induction entries generalizing rx with
    | nil => exact Spec.done accounts
    | cons entry rest ih =>
        refine Spec.bind (fun _ rx' => Accounting k rx') ?_ fun _ rx' accounts' => ih accounts'
        refine Spec.view (Spec.when (fun _ => Spec.load fun sndNxt => ?_) fun _ => accounts)
        have quiet : Quiet rx (rx.updateSlot entry.1 fun c => { c with ackPending := false }) :=
          .updateSlot rx entry.1 ⟨rfl, rfl, Or.inl ⟨rfl, rfl⟩⟩ rfl
        have queued := fun packet => quiet.trans (.queueControl _ packet)
        exact Spec.unobservedLast (queued _).unobserved (accounts.congr (queued _).summary)
  · intro _ rx' accounts'
    have quiet : Quiet rx' { rx' with ackList := [] } := .of_same rfl rfl rfl rfl rfl rfl
    exact .accounted accounts' quiet

/-- Sending control packets is not seen by the other thread. -/
theorem Quiet.flushControl (rx : Receiver) (controlTake : Nat) :
    Quiet rx (flushControl controlTake rx) where
  unobserved :=
    { freeSlots := rfl
      keeps := fun _ => .refl _
      log := by
        refine ⟨_, rfl, ?_⟩
        intro entry member
        rw [List.mem_reverse, List.mem_map] at member
        obtain ⟨packet, _, rfl⟩ := member
        trivial }
  summary := ⟨rfl, rfl, rfl, rfl, rfl⟩

/-- Finalizing a connection takes its flow entry, and its slot waits or is free. -/
theorem finalizeSlot_spec {rest : List Nat}
    (accounts : Accounting k { rx with finalizeList := idx :: rest }) :
    Spec terms rx (finalizeSlot idx) fun _ rx' =>
      Accounting k { rx' with finalizeList := rest } := by
  have listed := (accounts.finalizing.mem_iff idx).mp List.mem_cons_self
  have closed := ((rx.slots idx).place_eq_finalizing_iff.mp listed.2).1
  obtain ⟨erased, success, held⟩ := accounts.finalizeHeld
    { (rx.slots idx).summary with finalizePending := false }
    (by simp [SlotSummary.place, TcpConnection.summary, closed]) rfl rfl
  obtain ⟨erasedToo, successToo, released⟩ := accounts.finalizeReleased
    { (rx.slots idx).summary with free := true, closed := false, finalizePending := false } rfl rfl
  obtain rfl : erased = erasedToo := Option.some.inj (success.symm.trans successToo)
  have flowErased :
      (rx.updateSlot idx fun c => { c with finalizePending := false }).eraseFlow idx =
        { rx.updateSlot idx (fun c => { c with finalizePending := false }) with
          flows := erased } :=
    Receiver.eraseFlow_of_erase (by simpa [Receiver.flowKey, Receiver.summary,
      TcpConnection.summary] using success)
  have unscheduled : Unobserved rx (rx.updateSlot idx fun c =>
      { c with finalizePending := false }) :=
    .updateSlot rx idx ⟨rfl, rfl, Or.inl ⟨rfl, rfl⟩⟩
  refine Spec.unobserved ?_ ?_
  · rw [flowErased]
    exact unscheduled.trans
      ⟨rfl, fun _ => .refl _, [], rfl, fun _ member => absurd member List.not_mem_nil⟩
  · rw [flowErased]
    change Spec terms _ (loadOutFlags idx >>= fun out => if hasReleased out then
      inbound (·.releaseSlot idx) >>= Program.done else inbound _) _
    refine Spec.ifReleased ?_ rfl (Spec.done ?_) (Spec.unobservedLast ?_ ?_)
    · intro tx flag
      refine .releaseSlot ?_ rfl rfl ?_
      · intro i different
        simp [different]
      · exact .release (by simpa [Memory.view] using closed) flag
          (by simp [TcpConnection.identity, Memory.view]) (by simp)
    · have summary : Receiver.summary (Receiver.releaseSlot
          { rx.updateSlot idx (fun c => { c with finalizePending := false }) with
            flows := erased } idx) =
          Function.update rx.summary idx { (rx.slots idx).summary with
            free := true, closed := false, finalizePending := false } := by
        funext i
        by_cases same : i = idx
        · subst same
          simp [Receiver.summary, TcpConnection.summary]
        · simp [Receiver.summary, same]
      change ListsAgree _ _ _ _ _ (Function.update rx.summary idx _) at released
      rw [← summary] at released
      exact released
    · exact ⟨rfl, fun _ => .refl _, [], rfl, fun _ member => absurd member List.not_mem_nil⟩
    · have summary := Receiver.summary_updateSlot rx idx fun c =>
        { c with finalizePending := false }
      change ListsAgree _ _ _ _ _ (Function.update rx.summary idx _) at held
      change _ = Function.update rx.summary idx
        { (rx.slots idx).summary with finalizePending := false } at summary
      rw [← summary] at held
      exact held

/-- The loop of `finalize`; what is left of the list counts as scheduled. -/
theorem finalizeLoop_spec (entries : List Nat)
    (accounts : Accounting k { rx with finalizeList := entries }) :
    Spec terms rx (Program.forEach finalizeSlot entries) fun _ rx' =>
      Accounting k { rx' with finalizeList := [] } := by
  induction entries generalizing rx with
  | nil => exact Spec.done accounts
  | cons idx rest ih =>
      refine Spec.bind _ (finalizeSlot_spec accounts) ?_
      intro _ rx' accounts'
      exact ih accounts'

theorem finalize_spec (accounts : Accounting k rx) :
    Spec terms rx finalize fun _ rx' => Accounting k rx' := by
  refine Spec.view (Spec.bind _ (finalizeLoop_spec rx.finalizeList accounts) ?_)
  intro _ rx' accounts'
  exact Spec.unobservedLast
    ⟨rfl, fun _ => .refl _, [], rfl, fun _ member => absurd member List.not_mem_nil⟩ accounts'

theorem beginPoll_spec (accounts : Accounting k rx) :
    Spec terms rx beginPoll fun _ rx' => Accounting k rx' := by
  have quiet : Quiet rx { rx with events := [] } := .of_same rfl rfl rfl rfl rfl rfl
  exact Spec.unobserved quiet.unobserved (Spec.view
    (reapLoop_spec _ _ (accounts.congr quiet.summary)))

theorem endPoll_spec (accounts : Accounting k rx) (env : FlushEnv) :
    Spec terms rx (endPoll k env) fun _ rx' => Accounting k rx' := by
  refine Spec.bind _ (flushAcks_spec accounts env.ackPool) ?_
  intro _ rx' accounts'
  have quiet := Quiet.flushControl rx' env.controlTake
  exact Spec.unobserved quiet.unobserved (finalize_spec (accounts'.congr quiet.summary))

end Poll

end DpdkWrapper.Tcp
