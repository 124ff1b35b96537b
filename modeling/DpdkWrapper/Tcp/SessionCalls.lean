import DpdkWrapper.Tcp.SessionStep

/-!
# Calls and sessions

What an uninterrupted `send` or `close` does to the session its id names, and that
it leaves the other sessions alone.

A call is a program over the shared memory; run without interference it is one of the cases of
`CallStep`.  What is handed over comes from the rule for the loop of `send`, with the protocol in
which the other thread does nothing.
-/

namespace DpdkWrapper.Tcp

open Threads Wire

/-- Entries that belong to no session. -/
def TxEntry.silent : TxEntry → Bool
  | .opened _ => false
  | .sent _ _ => false
  | .sendReturned _ _ _ => false
  | _ => true

/-- The segment of an entry. -/
def TxEntry.segment : TxEntry → Option TxSegment
  | .sent _ segment => some segment
  | _ => none

/-- A change of the sender that no session sees. -/
structure Unsent (tx tx' : Sender) : Prop where
  slots : tx'.slots = tx.slots
  sends : ∀ i, sends i tx'.log = sends i tx.log
  segments : tx'.log.filterMap TxEntry.segment = tx.log.filterMap TxEntry.segment

namespace Unsent

variable {tx tx' tx'' : Sender}

theorem session (unsent : Unsent tx tx') (rx : Receiver) (i : Nat) :
    Memory.session ⟨rx, tx'⟩ i = Memory.session ⟨rx, tx⟩ i := by
  simp only [Memory.session, unsent.slots, unsent.sends i]

theorem refl (tx : Sender) : Unsent tx tx :=
  ⟨rfl, fun _ => rfl, rfl⟩

theorem trans (first : Unsent tx tx') (second : Unsent tx' tx'') : Unsent tx tx'' where
  slots := second.slots.trans first.slots
  sends i := (second.sends i).trans (first.sends i)
  segments := second.segments.trans first.segments

theorem note (tx : Sender) (entry : TxEntry) (silent : entry.silent = true) :
    Unsent tx (tx.note entry) where
  slots := rfl
  sends i := by
    apply sends_cons_of_not_concerns
    · rintro rfl
      cases silent
    · cases entry <;> first | rfl | cases silent
  segments := List.filterMap_cons_none (by cases entry <;> first | rfl | cases silent)

end Unsent

section Calls

variable (k : TcpStack) (conn : ConnId) (mem : Memory)

/-- What `lookup` finds without interference. -/
def found : Bool :=
  decide (conn.slot < k.maxConnections) &&
    (mem.rx.slots conn.slot).generation == conn.generation &&
    !hasReleased (mem.tx.slots conn.slot).outFlags

/-- What `sendable` returns without interference. -/
def canSend : Bool :=
  found k conn mem && !hasFinSent (mem.tx.slots conn.slot).outFlags &&
    !(mem.rx.slots conn.slot).terminated

theorem run_findSlot : (findSlot k conn).run mem = (found k conn mem, mem) := by
  rw [findSlot, found]
  split
  · rename_i outside
    rw [decide_eq_false (Nat.not_lt.mpr outside)]
    rfl
  · rename_i inside
    rw [decide_eq_true (Nat.not_le.mp inside), run_viewRx_bind]
    split
    · rename_i other
      have differs : ((mem.rx.slots conn.slot).generation == conn.generation) = false := by
        simpa using other
      rw [differs]
      rfl
    · rfl

theorem run_lookup_bind {β : Type} (rest : Bool → Code β) :
    (lookup k conn >>= rest).run mem = (rest (found k conn mem)).run
      ⟨mem.rx, mem.tx.note (.lookupReturned conn (found k conn mem))⟩ := by
  rw [Program.run_bind', lookup, Program.run_bind', run_findSlot]
  rfl

/-- Without interference `sendable` answers what the memory has, and changes nothing. -/
theorem run_sendable : ∃ tx, (sendable k conn).run mem =
    (canSend k conn mem, ⟨mem.rx, tx⟩) ∧ Unsent mem.tx tx := by
  rw [sendable, run_lookup_bind, canSend]
  have looked := Unsent.note mem.tx (.lookupReturned conn (found k conn mem)) rfl
  generalize mem.tx.note (.lookupReturned conn (found k conn mem)) = tx at looked ⊢
  rw [← looked.slots]
  cases found k conn mem with
  | false => exact ⟨_, rfl, looked.trans (.note tx _ rfl)⟩
  | true =>
      rw [if_pos rfl, Program.run_bind', openForSending, run_loadOutFlags_bind]
      cases sent : hasFinSent (tx.slots conn.slot).outFlags with
      | true => exact ⟨_, rfl, looked.trans (.note tx _ rfl)⟩
      | false => exact ⟨_, rfl, looked.trans (.note tx _ rfl)⟩

/-- What `send_space` returns without interference, if the connection can send. -/
def spaceOf (mem : Memory) (slot : Nat) : Nat :=
  windowSpace (mem.rx.slots slot).sendWindow (mem.tx.slots slot).sndNxt

variable {k conn mem} in
/-- The second `lookup` finds what the first one has found. -/
theorem found_of_canSend (ready : canSend k conn mem = true) {tx : Sender}
    (unsent : Unsent mem.tx tx) : found k conn ⟨mem.rx, tx⟩ = true := by
  simp only [canSend, Bool.and_eq_true] at ready
  rw [← ready.1.1, found, found, unsent.slots]

theorem run_sendSpace : ∃ tx, (sendSpace k conn).run mem =
    (if canSend k conn mem then spaceOf mem conn.slot else 0, ⟨mem.rx, tx⟩) ∧
      Unsent mem.tx tx := by
  obtain ⟨tx, runs, unsent⟩ := run_sendable k conn mem
  rw [sendSpace, Program.run_bind', runs]
  cases ready : canSend k conn mem with
  | false => exact ⟨_, rfl, unsent.trans (.note tx _ rfl)⟩
  | true =>
      have looked := unsent.trans (.note tx (.lookupReturned conn true) rfl)
      dsimp only
      rw [if_neg (by decide), run_lookup_bind, found_of_canSend ready unsent,
        if_neg (by decide), run_viewRx_bind, run_loadSndNxt_bind, if_pos rfl]
      dsimp only
      rw [looked.slots]
      exact ⟨_, rfl, looked.trans (.note _ _ rfl)⟩

/-- `send` behind its checks. -/
theorem run_send (bytes : List Byte) (env : SendEnv) : ∃ tx, Unsent mem.tx tx ∧
    (send k conn bytes env).run mem =
      if bytes.isEmpty || !canSend k conn mem then
        (0, ⟨mem.rx, tx.note (.sendReturned conn bytes 0)⟩)
      else
        let result := (sendOnConnection k conn bytes env).run ⟨mem.rx, tx⟩
        (result.1, ⟨result.2.rx, result.2.tx.note (.sendReturned conn bytes result.1)⟩) := by
  rw [send]
  cases bytes.isEmpty with
  | true => exact ⟨mem.tx, .refl _, rfl⟩
  | false =>
      obtain ⟨tx, runs, unsent⟩ := run_sendable k conn mem
      rw [if_neg Bool.false_ne_true, Program.run_bind', runs]
      cases ready : canSend k conn mem with
      | false => exact ⟨tx, unsent, rfl⟩
      | true =>
          refine ⟨_, unsent.trans (.note tx (.lookupReturned conn true) rfl), ?_⟩
          dsimp only
          rw [if_neg (by decide), run_lookup_bind, found_of_canSend ready unsent,
            if_neg (by decide), Program.run_bind']
          rfl

/-- `close` behind its `lookup`. -/
theorem run_close (env : CloseEnv) : ∃ tx, Unsent mem.tx tx ∧
    ((close k conn env).run mem).2 =
      if found k conn mem then
        let result := (closeFin k conn (mem.tx.slots conn.slot).outFlags env).run ⟨mem.rx, tx⟩
        ⟨result.2.rx, ((result.2.tx.updateSlot conn.slot fun fields =>
          { fields with outFlags := result.1 ||| outReleased }).note (.released conn)).note
            (.closeReturned conn)⟩
      else
        ⟨mem.rx, tx.note (.closeReturned conn)⟩ := by
  refine ⟨_, .note mem.tx (.lookupReturned conn (found k conn mem)) rfl, ?_⟩
  rw [close, run_lookup_bind]
  cases found k conn mem with
  | false => rfl
  | true =>
      rw [if_pos rfl, run_loadOutFlags_bind, Program.run_bind']
      rfl

/-- `send` and its moves, uninterrupted. -/
theorem sending_alone (plan : SendPlan) :
    Sending (Protocol.alone Memory) plan fun published _ sent later =>
      later = plan.transmit sent (plan.publish published mem) where
  stable := by
    rintro _ _ _ _ _ rfl rfl
    rfl
  publish := by
    rintro off taken sent _ rfl _ _ _
    exact ⟨trivial, plan.publish_transmit_publish off taken sent mem⟩
  transmit := by
    rintro off taken stop sent segments _ rfl _ _ _ _
    exact ⟨trivial, by simp [SendPlan.transmit]⟩
  rollBack := by
    rintro off taken sent _ rfl _ _ _
    exact ⟨trivial, plan.publish_transmit_publish taken off sent mem⟩

/-- Without interference `send` is a number of bursts of segments, each from the offset where
the last one ended. -/
theorem run_sendOnConnection (bytes : List Byte) (env : SendEnv)
    (mss : (mem.rx.slots conn.slot).sendMss ≠ 0) :
    let base := (mem.tx.slots conn.slot).sndNxt
    ∃ count segments,
      count ≤ bytes.length ∧
      count ≤ windowSpace (mem.rx.slots conn.slot).sendWindow base ∧
      Carries base (mem.rx.slots conn.slot).sendMss.toNat bytes 0 segments count ∧
      (sendOnConnection k conn bytes env).run mem = (count,
        ⟨mem.rx,
          { slots := Function.update mem.tx.slots conn.slot
              { mem.tx.slots conn.slot with sndNxt := base + BitVec.ofNat 32 count }
            log := (segments.map (.sent conn.slot)).reverse ++ mem.tx.log }⟩) := by
  intro base
  have positive : 0 < (mem.rx.slots conn.slot).sendMss.toNat := by
    rw [Nat.pos_iff_ne_zero]
    exact fun zero => mss (BitVec.eq_of_toNat_eq zero)
  rw [sendOnConnection, run_loadSndNxt_bind, run_viewRx_bind]
  dsimp only
  split
  · refine ⟨0, [], Nat.zero_le _, Nat.zero_le _, .nil 0, ?_⟩
    simp [base]
  · rw [run_viewRx_bind, run_viewRx_bind]
    set plan : SendPlan :=
      { slot := conn.slot
        addr := replyAddr k (mem.rx.slots conn.slot)
        base := (mem.tx.slots conn.slot).sndNxt
        ack := (mem.rx.slots conn.slot).rcvNxt
        mss := (mem.rx.slots conn.slot).sendMss.toNat
        bytes := bytes
        limit := min bytes.length (windowSpace (mem.rx.slots conn.slot).sendWindow
          (mem.tx.slots conn.slot).sndNxt) }
    have start : mem = plan.transmit [] (plan.publish 0 mem) := by
      simp [plan, SendPlan.transmit, SendPlan.publish, Sender.updateSlot]
    have meets := sendLoop_meets k (sending_alone mem plan) positive
      (Nat.min_le_left _ _) env (plan.limit + 1) 0 0 [] mem (by omega) (Nat.zero_le _)
      (.nil 0) start
    obtain ⟨segments, within, carries, final⟩ := meets.run fun _ _ => trivial
    refine ⟨_, segments, Nat.le_trans within (Nat.min_le_left _ _),
      Nat.le_trans within (Nat.min_le_right _ _), carries, ?_⟩
    exact Prod.ext rfl final

variable {k conn mem}

/-- What `sendReturned` adds to the session of its slot. -/
theorem session_sendReturned (rx : Receiver) (tx : Sender) (bytes : List Byte) (count : Nat) :
    Memory.session ⟨rx, tx.note (.sendReturned conn bytes count)⟩ conn.slot =
      { Memory.session ⟨rx, tx⟩ conn.slot with
        sends := .sendReturned conn bytes count :: sends conn.slot tx.log } := by
  have concerns : (TxEntry.sendReturned conn bytes count).concerns conn.slot = true := by
    simp [TxEntry.concerns]
  simp [Memory.session, sends_cons_of_concerns concerns]

theorem sends_transmitted (slot : Nat) (segments : List TxSegment) (log : List TxEntry) :
    sends slot ((segments.map (.sent slot)).reverse ++ log) =
      (segments.map (.sent slot)).reverse ++ sends slot log := by
  induction segments generalizing log with
  | nil => rfl
  | cons segment rest ih =>
      have concerns : (TxEntry.sent slot segment).concerns slot = true := by
        simp [TxEntry.concerns]
      rw [List.map_cons, List.reverse_cons, List.append_assoc, ih, List.singleton_append,
        sends_cons_of_concerns concerns, List.append_assoc, List.singleton_append]

theorem found_eq_true (finds : found k conn mem = true) :
    conn = (mem.session conn.slot).connId ∧
      hasReleased (mem.tx.slots conn.slot).outFlags = false := by
  simp only [found, Bool.and_eq_true, decide_eq_true_eq, beq_iff_eq, Bool.not_eq_true'] at finds
  refine ⟨?_, finds.2⟩
  cases conn
  simp only [Session.connId, ConnId.mk.injEq]
  exact ⟨rfl, finds.1.2.symm⟩

/-- A `send` that looks at the connection, as the session sees it. -/
theorem send_session (mss : (mem.rx.slots conn.slot).sendMss ≠ 0) {bytes : List Byte}
    (env : SendEnv) (ready : ¬(bytes.isEmpty || !canSend k conn mem) = true) :
    let session := mem.session conn.slot
    let sent := (send k conn bytes env).run mem
    ∃ segments, sent.1 ≤ bytes.length ∧
      sent.1 ≤ windowSpace session.conn.sendWindow session.out.sndNxt ∧
      Carries session.out.sndNxt session.conn.sendMss.toNat bytes 0 segments sent.1 ∧
      sent.2.session conn.slot =
        { session with
          out := { session.out with sndNxt := session.out.sndNxt + BitVec.ofNat 32 sent.1 }
          sends := .sendReturned conn bytes sent.1 ::
            ((segments.map (.sent conn.slot)).reverse ++ session.sends) } := by
  obtain ⟨tx, unsent, runs⟩ := run_send k conn mem bytes env
  obtain ⟨count, segments, inside, window, carries, sends⟩ :=
    run_sendOnConnection k conn ⟨mem.rx, tx⟩ bytes env mss
  simp only [unsent.slots] at window carries sends
  rw [if_neg ready, sends] at runs
  intro session sent
  refine ⟨segments, ?_⟩
  rw [show sent = _ from runs]
  refine ⟨inside, window, carries, ?_⟩
  dsimp only
  rw [session_sendReturned, sends_transmitted, unsent.sends]
  simp [session, Memory.session]

/-- `send`, as the session sees it. -/
theorem send_call (mss : (mem.rx.slots conn.slot).sendMss ≠ 0) (bytes : List Byte)
    (env : SendEnv) :
    CallStep (mem.session conn.slot) (.send conn bytes env)
      (((send k conn bytes env).run mem).2.session conn.slot) := by
  by_cases ready : (bytes.isEmpty || !canSend k conn mem) = true
  · obtain ⟨tx, unsent, runs⟩ := run_send k conn mem bytes env
    rw [runs, if_pos ready, session_sendReturned, unsent.sends, unsent.session]
    exact .refused conn bytes env rfl
  · obtain ⟨segments, inside, window, carries, final⟩ := send_session mss env ready
    simp only [canSend, Bool.or_eq_true, Bool.not_eq_true', Bool.not_eq_false, not_or,
      Bool.and_eq_true] at ready
    obtain ⟨_, ⟨finds, finSent⟩, terminated⟩ := ready
    obtain ⟨named, released⟩ := found_eq_true finds
    exact final ▸ .sent env named ⟨released, finSent, terminated⟩ inside window carries

variable (k conn)

/-- The retry loop of `close`, uninterrupted. -/
theorem run_finLoop (addr : SegmentAddr) (seq : BitVec 32) (env : CloseEnv) (retries : Nat)
    (mem : Memory) :
    ∃ segments : List TxSegment,
      (∀ segment ∈ segments, IsFin seq segment) ∧ segments.length ≤ 1 ∧
      ((finLoop k conn addr seq env retries 0 none).run mem).2 =
        ⟨mem.rx,
          { mem.tx with log := (segments.map (.sent conn.slot)).reverse ++ mem.tx.log }⟩ := by
  have finishing : Finishing (Protocol.alone Memory) conn.slot seq fun sent later =>
      later = ⟨mem.rx,
        { mem.tx with log := (sent.map (.sent conn.slot)).reverse ++ mem.tx.log }⟩ := by
    constructor
    · rintro _ _ _ rfl rfl
      rfl
    · rintro segment _ rfl _ _ _
      exact ⟨trivial, rfl⟩
  exact (finLoop_meets k finishing addr env retries 0 none mem (by simp) rfl).run
    fun _ _ => trivial

/-- `close` publishes a FIN on a connection that can still send. -/
theorem run_closeFin (env : CloseEnv) (mem : Memory)
    (finSent : hasFinSent (mem.tx.slots conn.slot).outFlags = false)
    (terminated : (mem.rx.slots conn.slot).terminated = false) :
    let fields := mem.tx.slots conn.slot
    ∃ segments : List TxSegment,
      (∀ segment ∈ segments, IsFin fields.sndNxt segment) ∧ segments.length ≤ 1 ∧
      (closeFin k conn fields.outFlags env).run mem =
        (fields.outFlags ||| outFinSent,
          ⟨mem.rx,
            { slots := Function.update mem.tx.slots conn.slot
                ⟨fields.sndNxt + 1, fields.outFlags ||| outFinSent⟩
              log := (segments.map (.sent conn.slot)).reverse ++ mem.tx.log }⟩) := by
  intro fields
  set marked : Sender :=
    (mem.tx.updateSlot conn.slot fun old => { old with sndNxt := fields.sndNxt + 1 }).updateSlot
      conn.slot fun old => { old with outFlags := fields.outFlags ||| outFinSent } with marked_eq
  obtain ⟨segments, isFin, single, runs⟩ := run_finLoop k conn
    (replyAddr k (mem.rx.slots conn.slot)) fields.sndNxt env closeRetries ⟨mem.rx, marked⟩
  refine ⟨segments, isFin, single, ?_⟩
  rw [closeFin, finSent, if_neg Bool.false_ne_true, run_viewRx_bind, terminated,
    if_neg Bool.false_ne_true, run_loadSndNxt_bind, run_storeSndNxt_bind,
    run_storeOutFlags_bind, Program.run_bind']
  refine Prod.ext rfl (runs.trans ?_)
  simp [marked_eq, Sender.updateSlot]

variable {k conn}

/-- The last stores of `close` only change `out_flags`. -/
theorem session_release (rx : Receiver) (tx : Sender) (out : BitVec 8) :
    Memory.session ⟨rx, ((tx.updateSlot conn.slot fun fields =>
        { fields with outFlags := out }).note (.released conn)).note (.closeReturned conn)⟩
        conn.slot =
      { Memory.session ⟨rx, tx⟩ conn.slot with
        out := { tx.slots conn.slot with outFlags := out } } := by
  have unsent := (Unsent.note (tx.updateSlot conn.slot fun fields =>
    { fields with outFlags := out }) (.released conn) rfl).trans (.note _ (.closeReturned conn) rfl)
  rw [unsent.session]
  simp [Memory.session]

/-- `close`, as the session sees it. -/
theorem close_call (env : CloseEnv) :
    CallStep (mem.session conn.slot) (.close conn env)
      (((close k conn env).run mem).2.session conn.slot) := by
  obtain ⟨tx, looked, runs⟩ := run_close k conn mem env
  rw [runs]
  cases finds : found k conn mem with
  | false =>
      have final := (looked.trans (.note tx (.closeReturned conn) rfl)).session mem.rx conn.slot
      exact final ▸ .same _
  | true =>
      obtain ⟨named, held⟩ := found_eq_true finds
      rw [if_pos rfl, ← looked.session]
      rw [← looked.session] at named
      rw [← looked.slots] at held ⊢
      dsimp only
      rw [session_release]
      by_cases sendable : hasFinSent (tx.slots conn.slot).outFlags = false ∧
          (mem.rx.slots conn.slot).terminated = false
      case pos =>
          obtain ⟨finSent, terminated⟩ := sendable
          obtain ⟨segments, isFin, single, runs⟩ :=
            run_closeFin k conn env ⟨mem.rx, tx⟩ finSent terminated
          rw [runs]
          have final := CallStep.finished env named ⟨held, finSent, terminated⟩ isFin single
          simpa [Memory.session, sends_transmitted] using final
      case neg =>
          have done : hasFinSent (tx.slots conn.slot).outFlags = true ∨
              (mem.rx.slots conn.slot).terminated = true := by
            simpa [imp_iff_not_or] using sendable
          have unchanged : (closeFin k conn (tx.slots conn.slot).outFlags env).run
              ⟨mem.rx, tx⟩ = ((tx.slots conn.slot).outFlags, ⟨mem.rx, tx⟩) := by
            rw [closeFin]
            rcases done with finSent | terminated
            · rw [if_pos finSent]
              rfl
            · split
              · rfl
              · rw [run_viewRx_bind, if_pos terminated]
                rfl
          rw [unchanged]
          exact .released env named held done

theorem sends_append_of {slot i : Nat} {entries log : List TxEntry}
    (about : ∀ entry ∈ entries, entry.Of slot) (other : i ≠ slot) :
    sends i (entries ++ log) = sends i log := by
  induction entries with
  | nil => rfl
  | cons entry rest ih =>
      have first := about entry List.mem_cons_self
      rw [List.cons_append, sends_cons_of_not_concerns,
        ih fun later member => about later (List.mem_cons_of_mem _ member)]
      · rintro rfl
        exact first
      · cases entry with
        | sent owner segment => exact beq_false_of_ne (first ▸ other.symm)
        | sendReturned conn bytes count => exact beq_false_of_ne (first ▸ other.symm)
        | _ => rfl

theorem CallFrame.session {slot i : Nat} {before after : Memory}
    (frame : CallFrame slot before after) (other : i ≠ slot) :
    after.session i = before.session i := by
  obtain ⟨entries, sameLog, about⟩ := frame.log
  simp only [Memory.session, frame.rx, frame.slots i other, sameLog,
    sends_append_of about other]

/-- The step lemma for calls: the session in their slot makes the step, and no other one. -/
theorem Call.session (call : Call) (i : Nat)
    (mss : 0 < (mem.session i).opens → (mem.session i).conn.sendMss ≠ 0) :
    SessionStep k (mem.session i) (.call call)
      (((call.code k).run mem).2.session i) := by
  have frame := call.run_frame k mem
  by_cases here : i = call.conn.slot
  case neg => exact .of_same (frame.session here)
  case pos =>
      rcases Nat.eq_zero_or_pos (mem.session i).opens with unopened | opened
      · have same : ((call.code k).run mem).2.session i =
            { mem.session i with
              out := (((call.code k).run mem).2.session i).out
              sends := (((call.code k).run mem).2.session i).sends } := by
          simp only [Memory.session, frame.rx]
        rw [same]
        exact .stray _ _ unopened
      · subst here
        refine .call opened ?_
        cases call with
        | sendable conn =>
            obtain ⟨tx, runs, unsent⟩ := run_sendable k conn mem
            rw [Call.code, Program.run_bind', runs]
            exact unsent.session mem.rx _ ▸ .same _
        | sendSpace conn =>
            obtain ⟨tx, runs, unsent⟩ := run_sendSpace k conn mem
            rw [Call.code, Program.run_bind', runs]
            exact unsent.session mem.rx _ ▸ .same _
        | send conn bytes env =>
            rw [Call.code, Program.run_bind']
            exact send_call (mss opened) bytes env
        | close conn env => exact close_call env

end Calls

end DpdkWrapper.Tcp
