import DpdkWrapper.Tcp.Session

/-!
# From the stack to its connections

An uninterrupted task or call acts on the sessions of all slots.  `SessionStep`
lists what it can do to one of them, and `Act.session` says that it does nothing
else.  What is proved of single sessions then holds in every run.

`ChangesSlot` is the form of all lemmas here: the session in the slot becomes a given one, and
the others stay.  `Unseen` is for changes that no session sees, such as the lists and the
counters.  There is one lemma for each program of the receiver, named after it.
-/

namespace DpdkWrapper.Tcp

open Threads Wire

theorem history_cons_self (slot : Nat) (log : List RxEntry) :
    history slot (.opened slot :: log) = [] := by
  simp [history, rxSince_cons_self]

@[simp]
theorem history_cons_of_concerns {slot : Nat} {entry : RxEntry} {log : List RxEntry}
    (concerned : entry.concerns slot = true) :
    history slot (entry :: log) = entry :: history slot log := by
  have other : entry ≠ .opened slot := by
    rintro rfl
    cases concerned
  rw [history, rxSince_cons_of_ne other, List.filter_cons_of_pos concerned, history]

theorem history_cons_of_not_concerns {slot : Nat} {entry : RxEntry} {log : List RxEntry}
    (other : entry ≠ .opened slot) (unconcerned : entry.concerns slot = false) :
    history slot (entry :: log) = history slot log := by
  rw [history, rxSince_cons_of_ne other, List.filter_cons_of_neg (by simp [unconcerned]),
    history]

theorem past_cons_self (slot : Nat) (log : List RxEntry) :
    past slot (.opened slot :: log) = history slot log :: past slot log := by
  simp [past]

theorem past_cons_of_ne {slot : Nat} {entry : RxEntry} (other : entry ≠ .opened slot)
    (log : List RxEntry) : past slot (entry :: log) = past slot log := by
  simp [past, other]

theorem length_past (slot : Nat) (log : List RxEntry) :
    (past slot log).length = opens slot log := by
  induction log with
  | nil => rfl
  | cons entry log ih =>
      by_cases opened : entry = .opened slot
      · subst opened
        rw [past_cons_self, List.length_cons, ih, opens_cons_self]
      · rw [past_cons_of_ne opened, ih, opens_cons_of_ne opened]

theorem session_opens (mem : Memory) (i : Nat) :
    (mem.session i).opens = opens i mem.rx.log :=
  length_past i mem.rx.log

theorem sends_cons_self (slot : Nat) (log : List TxEntry) :
    sends slot (.opened slot :: log) = [] := by
  simp [sends, txSince_cons_self]

theorem sends_cons_of_concerns {slot : Nat} {entry : TxEntry} {log : List TxEntry}
    (concerned : entry.concerns slot = true) :
    sends slot (entry :: log) = entry :: sends slot log := by
  have other : entry ≠ .opened slot := by
    rintro rfl
    cases concerned
  rw [sends, txSince_cons_of_ne other, List.filter_cons_of_pos concerned, sends]

theorem sends_cons_of_not_concerns {slot : Nat} {entry : TxEntry} {log : List TxEntry}
    (other : entry ≠ .opened slot) (unconcerned : entry.concerns slot = false) :
    sends slot (entry :: log) = sends slot log := by
  rw [sends, txSince_cons_of_ne other, List.filter_cons_of_neg (by simp [unconcerned]), sends]

/-- A change that only the session in slot `idx` can see. -/
structure ChangesSlot (idx : Nat) (mem : Memory) (session : Session) (mem' : Memory) :
    Prop where
  tx : mem'.tx = mem.tx
  here : mem'.session idx = session
  others : ∀ i, i ≠ idx → mem'.session i = mem.session i

namespace ChangesSlot

variable {idx : Nat} {mem mem' mem'' : Memory} {session : Session}

theorem refl (idx : Nat) (mem : Memory) :
    ChangesSlot idx mem (mem.session idx) mem :=
  ⟨rfl, rfl, fun _ _ => rfl⟩

/-- Changes of one slot compose. -/
theorem andThen {final : Session} (first : ChangesSlot idx mem session mem')
    (second : ChangesSlot idx mem' final mem'') : ChangesSlot idx mem final mem'' where
  tx := second.tx.trans first.tx
  here := second.here
  others i other := (second.others i other).trans (first.others i other)

theorem trans (change : Session → Session) (first : ChangesSlot idx mem session mem')
    (second : ChangesSlot idx mem' (change (mem'.session idx)) mem'') :
    ChangesSlot idx mem (change session) mem'' := by
  rw [first.here] at second
  exact first.andThen second

end ChangesSlot

/-- A change of the receiver that no session sees. -/
structure Unseen (rx rx' : Receiver) : Prop where
  slots : ∀ i, (rx'.slots i).core = (rx.slots i).core
  past : ∀ i, past i rx'.log = past i rx.log
  history : ∀ i, history i rx'.log = history i rx.log

namespace Unseen

variable {rx rx' rx'' : Receiver} {tx : Sender}

/-- A change that is unseen changes no session. -/
theorem session (unseen : Unseen rx rx') (i : Nat) :
    Memory.session ⟨rx', tx⟩ i = Memory.session ⟨rx, tx⟩ i := by
  simp only [Memory.session, unseen.slots i, unseen.past i, unseen.history i]

theorem turns (unseen : Unseen rx rx') (idx : Nat) :
    ChangesSlot idx ⟨rx, tx⟩ (Memory.session ⟨rx, tx⟩ idx) ⟨rx', tx⟩ :=
  ⟨rfl, unseen.session idx, fun i _ => unseen.session i⟩

theorem trans (first : Unseen rx rx') (second : Unseen rx' rx'') : Unseen rx rx'' where
  slots i := (second.slots i).trans (first.slots i)
  past i := (second.past i).trans (first.past i)
  history i := (second.history i).trans (first.history i)

theorem of_same (slots : rx'.slots = rx.slots) (log : rx'.log = rx.log) : Unseen rx rx' where
  slots i := by rw [slots]
  past i := by rw [log]
  history i := by rw [log]

theorem updateSlot {idx : Nat} {change : TcpConnection → TcpConnection}
    (same : ∀ c : TcpConnection, (change c).core = c.core) :
    Unseen rx (rx.updateSlot idx change) where
  slots i := by
    rw [Receiver.updateSlot_slots]
    split
    · exact same _
    · rfl
  past _ := rfl
  history _ := rfl

theorem queueControl (rx : Receiver) (packet : Option Packet) :
    Unseen rx (rx.queueControl packet) :=
  of_same (rx.queueControl_slots packet) (rx.queueControl_log packet)

theorem queueAck (rx : Receiver) (idx : Nat) : Unseen rx (rx.queueAck idx) where
  slots i := by
    rw [Receiver.queueAck_slots]
    split <;> rfl
  past i := by rw [Receiver.queueAck_log]
  history i := by rw [Receiver.queueAck_log]

theorem scheduleFinalize (rx : Receiver) (idx : Nat) :
    Unseen rx (rx.scheduleFinalize idx) where
  slots i := by
    rw [Receiver.scheduleFinalize_slots]
    split <;> rfl
  past i := by rw [Receiver.scheduleFinalize_log]
  history i := by rw [Receiver.scheduleFinalize_log]

theorem fault (rx : Receiver) : Unseen rx (rx.note .fault) where
  slots _ := rfl
  past _ := past_cons_of_ne (by simp) rx.log
  history _ := history_cons_of_not_concerns (by simp) rfl

theorem sendRstFor (k : TcpStack) (rx : Receiver) (seg : Segment) (pool : Bool) :
    Unseen rx (sendRstFor k rx seg pool) := by
  unfold Tcp.sendRstFor
  split
  · exact of_same rfl rfl
  · have counted : Unseen rx (rx.count .rstSent) := of_same rfl rfl
    exact counted.trans (queueControl _ _)

theorem eraseFlow (rx : Receiver) (idx : Nat) : Unseen rx (rx.eraseFlow idx) := by
  unfold Receiver.eraseFlow
  split
  · exact fault rx
  · exact of_same rfl rfl

end Unseen

/-! ## Single steps on a slot -/

namespace ChangesSlot

variable {idx : Nat} {rx : Receiver} {tx : Sender}

/-- A change of the record that does not depend on what sessions leave out. -/
theorem updateSlot {change : TcpConnection → TcpConnection}
    (commutes : ∀ c : TcpConnection, (change c).core = change c.core) :
    ChangesSlot idx ⟨rx, tx⟩ ((Memory.session ⟨rx, tx⟩ idx).update change)
      ⟨rx.updateSlot idx change, tx⟩ where
  tx := rfl
  here := by simp [Memory.session, Session.update, commutes]
  others i other := by simp [Memory.session, other]

theorem setState (state : TcpState) :
    ChangesSlot idx ⟨rx, tx⟩ ((Memory.session ⟨rx, tx⟩ idx).setState state)
      ⟨rx.updateSlot idx fun c => { c with state := state }, tx⟩ :=
  updateSlot fun _ => rfl

theorem note {entry : RxEntry} (concerned : ∀ i, entry.concerns i = (idx == i))
    (other : ∀ i, entry ≠ .opened i) :
    ChangesSlot idx ⟨rx, tx⟩ ((Memory.session ⟨rx, tx⟩ idx).note entry) ⟨rx.note entry, tx⟩ where
  tx := rfl
  here := by
    have here : entry.concerns idx = true := by simp [concerned]
    simp [Memory.session, Session.note, here, past_cons_of_ne (other idx)]
  others i differs := by
    have elsewhere : entry.concerns i = false := by
      rw [concerned, beq_eq_false_iff_ne]
      exact differs.symm
    simp [Memory.session, history_cons_of_not_concerns (other i) elsewhere,
      past_cons_of_ne (other i)]

theorem pushEvent (type : TcpEventType) (data : List Byte) :
    ChangesSlot idx ⟨rx, tx⟩ ((Memory.session ⟨rx, tx⟩ idx).push type data)
      ⟨rx.pushEvent type idx data, tx⟩ := by
  have noted : ChangesSlot idx ⟨rx, tx⟩ _ ⟨rx.note (.event (rx.makeEvent type idx data)), tx⟩ :=
    note (fun _ => rfl) (fun _ => by rintro ⟨⟩)
  exact ⟨noted.tx, noted.here, noted.others⟩

theorem unseen {mem : Memory} {session : Session} {rx' : Receiver}
    (first : ChangesSlot idx mem session ⟨rx, tx⟩) (second : Unseen rx rx') :
    ChangesSlot idx mem session ⟨rx', tx⟩ :=
  first.trans id (second.turns idx)

end ChangesSlot

/-! ## Programs on a slot -/

section Programs

variable (idx : Nat) (seg : Segment) (mem : Memory)

theorem terminate_turns (why : TcpEventType) :
    ChangesSlot idx mem ((mem.session idx).terminate why)
      ((terminate idx why).run mem).2 := by
  rw [terminate, run_inbound_bind, run_inbound]
  have closed : ChangesSlot idx mem
      ((mem.session idx).update fun c => { c with state := .closed, terminated := true })
      ⟨mem.rx.updateSlot idx fun c =>
        { c with
          state := .closed
          terminated := true
          ackPending := if why = .reset then false else c.ackPending }, mem.tx⟩ :=
    ⟨rfl, by simp [Memory.session, Session.update, TcpConnection.core],
      fun i other => by simp [Memory.session, other]⟩
  exact (closed.trans (Session.push · why []) (ChangesSlot.pushEvent why [])).unseen
    (Unseen.scheduleFinalize _ idx)

theorem syncOutFlags_turns :
    ChangesSlot idx mem (mem.session idx).syncOutFlags
      ((syncOutFlags idx).run mem).2 := by
  rw [syncOutFlags, run_loadOutFlags_bind, Program.run_when]
  cases sent : hasFinSent (mem.tx.slots idx).outFlags with
  | false =>
      have same : (mem.session idx).syncOutFlags = mem.session idx := by
        simp [Session.syncOutFlags, Memory.session, sent]
      rw [same]
      exact ChangesSlot.refl idx mem
  | true =>
      rw [Session.syncOutFlags, session_out, if_pos sent]
      apply ChangesSlot.updateSlot
      intro c
      cases state : c.state <;> simp [TcpConnection.core, state]

theorem takeFin_turns (rx : Receiver) (tx : Sender) :
    ChangesSlot idx ⟨rx, tx⟩ (Memory.session ⟨rx, tx⟩ idx).takeFin ⟨takeFin idx rx, tx⟩ :=
  ChangesSlot.trans (Session.note · (.finConsumed idx)) (ChangesSlot.updateSlot fun _ => rfl)
    (ChangesSlot.note (fun _ => rfl) (fun _ => by rintro ⟨⟩))

theorem consumeFin_turns :
    ChangesSlot idx mem (mem.session idx).consumeFin ((consumeFin idx).run mem).2 := by
  have taken := takeFin_turns idx mem.rx mem.tx
  rw [consumeFin, run_viewRx_bind, Session.consumeFin, session_state]
  cases (mem.rx.slots idx).state with
  | established =>
      exact (taken.trans (Session.setState · .closeWait) (ChangesSlot.setState _)).trans
        (Session.push · .peerClosed []) (ChangesSlot.pushEvent _ _)
  | finWait1 => exact taken.trans (Session.setState · .closing) (ChangesSlot.setState _)
  | finWait2 => exact taken.trans (Session.terminate · .closed) (terminate_turns idx _ .closed)
  | _ => exact taken

theorem finishAck_turns :
    let result := (finishAck idx seg (mem.tx.slots idx).outFlags
      (mem.tx.slots idx).sndNxt).run mem
    result.1 = ((mem.session idx).finishAck seg).1 ∧
      ChangesSlot idx mem ((mem.session idx).finishAck seg).2 result.2 := by
  rw [finishAck, Session.finishAck, session_out, session_state]
  split
  · rw [run_viewRx_bind]
    cases (mem.rx.slots idx).state with
    | finWait1 => exact ⟨rfl, ChangesSlot.setState _⟩
    | closing | lastAck => exact ⟨rfl, terminate_turns idx mem .closed⟩
    | _ => exact ⟨rfl, ChangesSlot.refl idx mem⟩
  · exact ⟨rfl, ChangesSlot.refl idx mem⟩

theorem recordAck_core (c : TcpConnection) : (recordAck seg c).core = recordAck seg c.core := by
  have sameUna : c.core.sndUna = c.sndUna := rfl
  rw [recordAck, recordAck, sameUna, apply_ite TcpConnection.core]
  split <;> rfl

theorem ackChanges_core (c : TcpConnection) : ackChanges seg c.core = ackChanges seg c := by
  rw [ackChanges, ← recordAck_core, ackChanges]
  rfl

theorem record_turns :
    ChangesSlot idx mem ((mem.session idx).record seg)
      ((Program.when (ackChanges seg (mem.rx.slots idx)) (publishWindow idx)).run
        ⟨mem.rx.updateSlot idx (recordAck seg), mem.tx⟩).2 := by
  have recorded : ChangesSlot idx mem ((mem.session idx).update (recordAck seg))
      ⟨mem.rx.updateSlot idx (recordAck seg), mem.tx⟩ :=
    ChangesSlot.updateSlot (recordAck_core seg)
  have changes : ackChanges seg (mem.session idx).conn =
      ackChanges seg (mem.rx.slots idx) := ackChanges_core seg _
  rw [Program.run_when, Session.record]
  cases changed : ackChanges seg (mem.rx.slots idx) with
  | false =>
      rw [changed] at changes
      simpa [Session.update, changes] using recorded
  | true =>
      rw [changed] at changes
      have published := recorded.trans (Session.update · fun c =>
        { c with sendWindow := packWindow c.sndUna c.sndWnd }) (ChangesSlot.updateSlot fun _ => rfl)
      simpa [Session.update, changes, publishWindow, run_inbound] using published

theorem run_checkAck_bind {β : Type} (rest : AckCheck → Code β) :
    (checkAck idx seg >>= rest).run mem =
      if seqGt seg.ack (mem.tx.slots idx).sndNxt then
        (rest .refused).run ⟨(mem.rx.queueAck idx).note
          (.ackRefused idx seg.ack (mem.tx.slots idx).sndNxt), mem.tx⟩
      else
        (rest (.recorded (mem.tx.slots idx).sndNxt
          (ackChanges seg (mem.rx.slots idx)))).run
            ⟨mem.rx.updateSlot idx (recordAck seg), mem.tx⟩ := by
  split
  · rename_i beyond
    simp [checkAck, beyond]
  · rename_i within
    simp [checkAck, within]

/-- `process_ack` on the memory is `process_ack` on the session. -/
theorem processAck_turns :
    ((processAck idx seg).run mem).1 = ((mem.session idx).processAck seg).1 ∧
      ChangesSlot idx mem ((mem.session idx).processAck seg).2
        ((processAck idx seg).run mem).2 := by
  rw [processAck, run_loadOutFlags_bind, run_checkAck_bind, Session.processAck, session_out]
  by_cases beyond : seqGt seg.ack (mem.tx.slots idx).sndNxt = true
  · rw [if_pos beyond, if_pos beyond]
    have acked : ChangesSlot idx mem (mem.session idx) ⟨mem.rx.queueAck idx, mem.tx⟩ :=
      (Unseen.queueAck mem.rx idx).turns idx
    exact ⟨rfl, acked.trans (Session.note · _)
      (ChangesSlot.note (fun _ => rfl) (fun _ => by rintro ⟨⟩))⟩
  · rw [if_neg beyond, if_neg beyond]
    have recorded := record_turns idx seg mem
    dsimp only
    rw [Program.run_bind']
    have finished := finishAck_turns idx seg ((Program.when
      (ackChanges seg (mem.rx.slots idx)) (publishWindow idx)).run
        ⟨mem.rx.updateSlot idx (recordAck seg), mem.tx⟩).2
    rw [recorded.tx] at finished
    refine ⟨?_, ?_⟩
    · rw [← recorded.here]
      exact finished.1
    · exact recorded.trans (Session.finishAck · seg |>.2) finished.2

theorem deliver_turns (rx : Receiver) (tx : Sender) :
    ChangesSlot idx ⟨rx, tx⟩ ((Memory.session ⟨rx, tx⟩ idx).deliver seg)
      ⟨deliver idx seg rx, tx⟩ := by
  rw [deliver, Session.deliver, session_rcvNxtLocal]
  dsimp only
  split
  · exact (ChangesSlot.pushEvent .data _).trans (Session.update · _)
      (ChangesSlot.updateSlot fun _ => rfl)
  · exact ChangesSlot.refl idx _

/-- `process_data` on the memory is `process_data` on the session. -/
theorem processData_turns :
    ChangesSlot idx mem ((mem.session idx).processData seg)
      ((processData idx seg).run mem).2 := by
  rw [processData, run_viewRx_bind, Session.processData, session_state, session_rcvNxtLocal]
  split
  · rw [Program.run_when]
    split
    · exact (Unseen.queueAck mem.rx idx).turns idx
    · exact ChangesSlot.refl idx mem
  · split
    · exact ChangesSlot.refl idx mem
    · split
      · have counted : Unseen mem.rx (mem.rx.count .outOfOrder) := .of_same rfl rfl
        exact (counted.trans (Unseen.queueAck _ idx)).turns idx
      · rw [run_inbound_bind, run_viewRx_bind, Session.accept]
        have delivered : ChangesSlot idx mem _
            ⟨(deliver idx seg mem.rx).queueAck idx, mem.tx⟩ :=
          (deliver_turns idx seg mem.rx mem.tx).unseen (Unseen.queueAck _ idx)
        have sameNxt : (((deliver idx seg mem.rx).queueAck idx).slots idx).rcvNxtLocal =
            ((mem.session idx).deliver seg).conn.rcvNxtLocal := by
          rw [← delivered.here, session_rcvNxtLocal]
        dsimp only
        rw [Program.run_bind', Program.run_when, sameNxt]
        split
        · exact (delivered.trans Session.consumeFin (consumeFin_turns idx _)).trans
            Session.publishRcvNxt (ChangesSlot.updateSlot fun _ => rfl)
        · exact delivered.trans Session.publishRcvNxt (ChangesSlot.updateSlot fun _ => rfl)

variable (k : TcpStack) (pool : Bool)

theorem releaseSlot_turns (rx : Receiver) (tx : Sender) :
    ChangesSlot idx ⟨rx, tx⟩ ((Memory.session ⟨rx, tx⟩ idx).setState .free)
      ⟨rx.releaseSlot idx, tx⟩ where
  tx := rfl
  here := by simp [Memory.session, Session.setState, Session.update, TcpConnection.core]
  others i other := by simp [Memory.session, other]

/-- The handshake on the memory is the handshake on the session. -/
theorem processHandshake_turns :
    ChangesSlot idx mem ((mem.session idx).processHandshake k seg)
      ((processHandshake k idx seg pool).run mem).2 := by
  have acceptable : rstAcceptable k (mem.session idx).conn seg =
      rstAcceptable k (mem.rx.slots idx) seg := rfl
  rw [processHandshake, run_viewRx_bind, Session.processHandshake, session_iss, acceptable]
  cases reset : seg.has rstFlag with
  | true =>
      rw [if_pos rfl, if_pos rfl, Program.run_when]
      split
      · have counted : Unseen mem.rx (mem.rx.count .rstReceived) := .of_same rfl rfl
        exact ((counted.trans (Unseen.eraseFlow _ idx)).turns idx).trans
          (Session.setState · .free) (releaseSlot_turns idx _ mem.tx)
      · exact ChangesSlot.refl idx mem
  | false =>
      rw [if_neg Bool.false_ne_true, if_neg Bool.false_ne_true]
      cases syn : seg.has synFlag with
      | true =>
          simp only [if_true, Bool.true_or, Program.run_when]
          split
          · exact (Unseen.queueControl mem.rx _).turns idx
          · exact ChangesSlot.refl idx mem
      | false =>
          cases ack : seg.has ackFlag with
          | false => exact ChangesSlot.refl idx mem
          | true =>
              cases other : seg.ack != (mem.rx.slots idx).iss + 1 with
              | true => exact (Unseen.sendRstFor k mem.rx seg pool).turns idx
              | false =>
                  have confirmed : ChangesSlot idx mem
                      ((mem.session idx).update (firstAck seg))
                      ⟨mem.rx.updateSlot idx (firstAck seg), mem.tx⟩ :=
                    ChangesSlot.updateSlot fun _ => rfl
                  have established :=
                    (confirmed.trans (Session.setState · .established)
                      (ChangesSlot.setState _)).trans
                      (Session.push · .accepted []) (ChangesSlot.pushEvent _ _)
                  exact established.trans (Session.processData · seg)
                    (processData_turns idx seg _)

theorem processSynchronized_turns :
    ChangesSlot idx mem ((mem.session idx).processSynchronized k seg)
      ((processSynchronized k idx seg).run mem).2 := by
  have acceptable : rstAcceptable k (mem.session idx).conn seg =
      rstAcceptable k (mem.rx.slots idx) seg := rfl
  rw [processSynchronized, run_viewRx_bind, Session.processSynchronized, acceptable]
  cases reset : seg.has rstFlag with
  | true =>
      rw [if_pos rfl, if_pos rfl, Program.run_when]
      split
      · have counted : Unseen mem.rx (mem.rx.count .rstReceived) := .of_same rfl rfl
        exact (counted.turns idx).trans (Session.terminate · .reset)
          (terminate_turns idx _ .reset)
      · exact ChangesSlot.refl idx mem
  | false =>
      rw [if_neg Bool.false_ne_true, if_neg Bool.false_ne_true]
      cases syn : seg.has synFlag with
      | true => exact (Unseen.queueAck mem.rx idx).turns idx
      | false =>
          cases ack : seg.has ackFlag with
          | false => exact ChangesSlot.refl idx mem
          | true =>
              obtain ⟨proceeds, acked⟩ := processAck_turns idx seg mem
              simp only [Bool.false_or, Bool.not_true, Bool.false_eq_true, if_false]
              rw [Program.run_bind', Program.run_when, proceeds]
              split
              · exact acked.trans (Session.processData · seg) (processData_turns idx seg _)
              · exact acked

/-- The step lemma: `process_segment` on the memory is `process_segment` on the session, and no
other session changes. -/
theorem processSegment_turns :
    ChangesSlot idx mem ((mem.session idx).processSegment k seg)
      ((processSegment k idx seg pool).run mem).2 := by
  have synced := syncOutFlags_turns idx mem
  rw [processSegment, Program.run_bind', run_viewRx_bind, Session.processSegment, ← synced.here,
    session_state]
  cases state : (((syncOutFlags idx).run mem).2.rx.slots idx).state with
  | free | closed => exact synced.andThen (ChangesSlot.refl idx _)
  | synReceived => exact synced.andThen (processHandshake_turns idx seg _ k pool)
  | _ => exact synced.andThen (processSynchronized_turns idx seg _ k)

end Programs

/-! ## Opening -/

theorem Unseen.insertFlow (rx : Receiver) (idx : Nat) : Unseen rx (rx.insertFlow idx) := by
  unfold Receiver.insertFlow
  split
  · exact fault rx
  · exact of_same rfl rfl

/-- `open` gives its slot a fresh session and leaves the others alone. -/
theorem openSlot_sessions (k : TcpStack) (idx : Nat) (seg : Segment) (peerMss : BitVec 16)
    (rand : BitVec 64) (pool : Bool) (mem : Memory) (i : Nat) :
    ((openSlot k idx seg peerMss rand pool).run mem).2.session i =
      if i = idx then (mem.session i).openFor k seg peerMss rand else mem.session i := by
  rw [openSlot, run_viewRx_bind, run_inbound_bind, run_inbound_bind, publishWindow,
    run_inbound_bind, run_inbound_bind, run_storeSndNxt_bind, run_outbound_bind, run_inbound]
  dsimp only
  rw [sendSynAck, ((Unseen.insertFlow _ idx).trans (Unseen.queueControl _ _)).session]
  by_cases same : i = idx
  · subst same
    simp [Memory.session, Session.openFor, initialized, TcpConnection.core, past_cons_self,
      history_cons_self, sends_cons_self]
  · have otherRx : RxEntry.opened idx ≠ .opened i := by simpa using Ne.symm same
    have otherTx : TxEntry.opened idx ≠ .opened i := by simpa using Ne.symm same
    simp [Memory.session, same, past_cons_of_ne otherRx,
      history_cons_of_not_concerns otherRx rfl, sends_cons_of_not_concerns otherTx rfl]

end DpdkWrapper.Tcp
