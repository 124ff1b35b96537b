import DpdkWrapper.Tcp.Dispatch
import DpdkWrapper.Tcp.Transmission

/-!
# What a task or a call does to a session

`SessionStep` lists everything that an uninterrupted task or call can do to the
session in a slot, and `Act.session` proves that the list is complete.  An
invariant of single sessions that every such step keeps holds in every run.

The list has one constructor for a segment, one for an opening, one for a slot that is given up,
one for calls, and one for calls on a slot that was never opened.  Lists, counters and control
packets do not occur in it, so later invariants of sessions do not depend on how the receiver
keeps them.
-/

namespace DpdkWrapper.Tcp

open Threads Wire

namespace Session

/-- The id of a session's connection. -/
def connId (session : Session) : ConnId :=
  ⟨session.slot, session.conn.generation⟩

/-- The application can send: `sendable` returns true. -/
structure Sendable (session : Session) : Prop where
  released : hasReleased session.out.outFlags = false
  finSent : hasFinSent session.out.outFlags = false
  terminated : session.conn.terminated = false

end Session

/-- What a call can do to a session. -/
inductive CallStep (session : Session) : Call → Session → Prop
  | same (call : Call) : CallStep session call session
  /-- `send` returns without looking at the connection. -/
  | refused (conn : ConnId) (bytes : List Byte) (env : SendEnv)
      (here : conn.slot = session.slot) :
      CallStep session (.send conn bytes env)
        { session with sends := .sendReturned conn bytes 0 :: session.sends }
  /-- `send` hands over segments that carry the first bytes of its argument. -/
  | sent {conn : ConnId} {bytes : List Byte} {count : Nat} {segments : List TxSegment}
      (env : SendEnv) (named : conn = session.connId) (sendable : session.Sendable)
      (inside : count ≤ bytes.length)
      (window : count ≤ windowSpace session.conn.sendWindow session.out.sndNxt)
      (carries : Carries session.out.sndNxt session.conn.sendMss.toNat bytes 0 segments count) :
      CallStep session (.send conn bytes env)
        { session with
          out := { session.out with
            sndNxt := session.out.sndNxt + BitVec.ofNat 32 count }
          sends := .sendReturned conn bytes count ::
            ((segments.map (.sent session.slot)).reverse ++ session.sends) }
  /-- `close` publishes a FIN, which the queue may take, and releases the slot. -/
  | finished {conn : ConnId} {segments : List TxSegment} (env : CloseEnv)
      (named : conn = session.connId) (sendable : session.Sendable)
      (isFin : ∀ segment ∈ segments, IsFin session.out.sndNxt segment)
      (single : segments.length ≤ 1) :
      CallStep session (.close conn env)
        { session with
          out := ⟨session.out.sndNxt + 1,
            session.out.outFlags ||| outFinSent ||| outReleased⟩
          sends := (segments.map (.sent session.slot)).reverse ++ session.sends }
  /-- `close` on a connection that has sent its FIN or is terminal. -/
  | released {conn : ConnId} (env : CloseEnv) (named : conn = session.connId)
      (held : hasReleased session.out.outFlags = false)
      (done : hasFinSent session.out.outFlags = true ∨ session.conn.terminated = true) :
      CallStep session (.close conn env)
        { session with
          out := { session.out with outFlags := session.out.outFlags ||| outReleased } }

/-- What an action can do to a session. -/
inductive SessionStep (k : TcpStack) (session : Session) : Action → Session → Prop
  | idle (action : Action) : SessionStep k session action session
  | opened {packet : RxPacket} {seg : Segment} {peerMss : BitVec 16}
      (decoded : decode k packet.frame packet.contiguous = some (.segment seg))
      (free : session.conn.state = .free) (mss : peerMss ≠ 0) :
      SessionStep k session (.task (.packet packet))
        (session.openFor k seg peerMss packet.rand)
  | segment {packet : RxPacket} {seg : Segment}
      (decoded : decode k packet.frame packet.contiguous = some (.segment seg))
      (named : session.Matches seg) (live : session.conn.state ≠ .free) :
      SessionStep k session (.task (.packet packet)) (session.processSegment k seg)
  | freed (task : Task) (closed : session.conn.state = .closed)
      (released : hasReleased session.out.outFlags = true) :
      SessionStep k session (.task task) (session.setState .free)
  | call {call : Call} {session' : Session} (opened : 0 < session.opens)
      (step : CallStep session call session') : SessionStep k session (.call call) session'
  /-- An id that was never given out, on a slot that was never opened. -/
  | stray {call : Call} (out : OutboundFields) (sends : List TxEntry)
      (unopened : session.opens = 0) :
      SessionStep k session (.call call) { session with out := out, sends := sends }

/-! ## Packets -/

section Tasks

variable {k : TcpStack}

theorem SessionStep.of_same {action : Action} {session session' : Session}
    (same : session' = session) : SessionStep k session action session' := by
  rw [same]
  exact .idle action

/-- A packet, as each session sees it. -/
theorem process_session {mem : Memory} (accounts : Accounting k mem.rx)
    (packet : RxPacket) (i : Nat) :
    SessionStep k (mem.session i) (.task (.packet packet))
      (((process k packet).run mem).2.session i) := by
  have dispatch := process_dispatch accounts packet
  generalize ((process k packet).run mem).2 = after at dispatch ⊢
  cases dispatch with
  | other _ answers | refused _ _ _ answers => exact .of_same (answers.session i)
  | @opened seg idx rest peerMss decoded _ _ first parsed =>
      rw [openSlot_sessions]
      split
      · rename_i same
        subst same
        have listed : i ∈ mem.rx.freeSlots := by
          rw [first]
          exact List.mem_cons_self
        have free := ((accounts.partitioned.mem_freeSlots i).mp listed).2
        exact .opened decoded free (parseMssOption_ne_zero parsed)
      · exact .idle _
  | @segment seg idx decoded inside inFlow named =>
      have turns := processSegment_turns idx seg mem k packet.pool
      by_cases same : i = idx
      · subst same
        rw [turns.here]
        exact .segment decoded named (accounts.ne_free_of_inFlow inside inFlow)
      · exact .of_same (turns.others i same)

/-! ## The start and the end of a poll -/

/-- Some of the listed slots, all of them released, have become free. -/
structure Frees (entries : List Nat) (before after : Memory) : Prop where
  tx : after.tx = before.tx
  session : ∀ i, after.session i = before.session i ∨
    i ∈ entries ∧ hasReleased (before.tx.slots i).outFlags = true ∧
      after.session i = (before.session i).setState .free

namespace Frees

variable {entries others : List Nat} {first second third : Memory}

theorem refl (entries : List Nat) (mem : Memory) : Frees entries mem mem :=
  ⟨rfl, fun _ => Or.inl rfl⟩

theorem mono (frees : Frees others first second) (more : ∀ i ∈ others, i ∈ entries) :
    Frees entries first second where
  tx := frees.tx
  session i := (frees.session i).imp_right fun ⟨member, rest⟩ => ⟨more i member, rest⟩

/-- What two steps free. -/
theorem trans (left : Frees entries first second) (right : Frees entries second third) :
    Frees entries first third where
  tx := right.tx.trans left.tx
  session i := by
    rcases right.session i with same | ⟨member, released, freed⟩
    · rw [same]
      exact left.session i
    · rw [left.tx] at released
      rcases left.session i with same | ⟨_, _, freedBefore⟩
      · rw [same] at freed
        exact Or.inr ⟨member, released, freed⟩
      · rw [freedBefore] at freed
        exact Or.inr ⟨member, released, freed⟩

theorem of_unseen {rx rx' : Receiver} {tx : Sender} (unseen : Unseen rx rx') :
    Frees entries ⟨rx, tx⟩ ⟨rx', tx⟩ :=
  ⟨rfl, fun i => Or.inl (unseen.session i)⟩

theorem releaseSlot {rx : Receiver} {tx : Sender} {idx : Nat} (member : idx ∈ entries)
    (released : hasReleased (tx.slots idx).outFlags = true) :
    Frees entries ⟨rx, tx⟩ ⟨rx.releaseSlot idx, tx⟩ where
  tx := rfl
  session i := by
    have turns := releaseSlot_turns idx rx tx
    by_cases same : i = idx
    · subst same
      exact Or.inr ⟨member, released, turns.here⟩
    · exact Or.inl (turns.others i same)

end Frees

/-- Reaping frees released slots only, by induction over the fuel. -/
theorem reapLoop_frees (fuel i : Nat) (mem : Memory) :
    Frees mem.rx.awaitingRelease mem ((reapLoop fuel i).run mem).2 := by
  induction fuel generalizing i mem with
  | zero => exact .of_unseen (.fault mem.rx)
  | succ fuel ih =>
      rw [reapLoop, run_viewRx_bind]
      cases found : mem.rx.awaitingRelease[i]? with
      | none => exact .refl _ mem
      | some idx =>
          dsimp only
          rw [run_loadOutFlags_bind]
          split
          · rename_i released
            have taken := perm_swapRemove found
            have freed : Frees mem.rx.awaitingRelease mem
                ⟨mem.rx.releaseSlot idx, mem.tx⟩ :=
              .releaseSlot (taken.mem_iff.mpr List.mem_cons_self) released
            have shortened : Frees mem.rx.awaitingRelease mem
                ⟨{ mem.rx.releaseSlot idx with
                  awaitingRelease := swapRemove mem.rx.awaitingRelease i }, mem.tx⟩ :=
              ⟨rfl, freed.session⟩
            refine shortened.trans ((ih i _).mono ?_)
            intro j member
            exact taken.mem_iff.mpr (List.mem_cons_of_mem _ member)
          · exact ih (i + 1) mem

theorem finalizeSlot_frees (idx : Nat) (mem : Memory) :
    Frees [idx] mem ((finalizeSlot idx).run mem).2 := by
  have cleared : Unseen mem.rx
      (mem.rx.updateSlot idx fun c => { c with finalizePending := false }) :=
    .updateSlot fun _ => rfl
  have erased : Frees [idx] mem _ := .of_unseen (cleared.trans (.eraseFlow _ idx))
  rw [finalizeSlot, run_inbound_bind, run_loadOutFlags_bind]
  split
  · rename_i released
    exact erased.trans (.releaseSlot List.mem_cons_self released)
  · exact erased.trans (.of_unseen (.of_same rfl rfl))

/-- Finalizing frees released slots only. -/
theorem finalize_frees (mem : Memory) :
    Frees mem.rx.finalizeList mem (finalize.run mem).2 := by
  have loop : ∀ (entries : List Nat) (mem : Memory),
      Frees entries mem ((Program.forEach finalizeSlot entries).run mem).2 := by
    intro entries
    induction entries with
    | nil => exact fun mem => .refl _ mem
    | cons idx rest ih =>
        intro mem
        rw [Program.run_forEach_cons]
        refine ((finalizeSlot_frees idx mem).mono ?_).trans ((ih _).mono ?_)
        · simp
        · exact fun _ => List.mem_cons_of_mem idx
  rw [finalize, run_viewRx_bind, Program.run_bind', run_inbound]
  exact (loop _ mem).trans (.of_unseen (.of_same rfl rfl))

theorem flushAck_frees (k : TcpStack) (ackPool : Nat → Bool) (entry : Nat × Nat) (mem : Memory) :
    Frees [] mem ((flushAck k ackPool entry).run mem).2 := by
  rw [flushAck, run_viewRx_bind, Program.run_when]
  split
  · rw [run_loadSndNxt_bind, run_inbound]
    have cleared : Unseen mem.rx
        (mem.rx.updateSlot entry.1 fun c => { c with ackPending := false }) :=
      .updateSlot fun _ => rfl
    exact .of_unseen (cleared.trans (.queueControl _ _))
  · exact .refl [] mem

/-- The flush of the ACKs frees nothing. -/
theorem flushAcks_frees (k : TcpStack) (ackPool : Nat → Bool) (mem : Memory) :
    Frees [] mem ((flushAcks k ackPool).run mem).2 := by
  have loop : ∀ (entries : List (Nat × Nat)) (mem : Memory),
      Frees [] mem ((Program.forEach (flushAck k ackPool) entries).run mem).2 := by
    intro entries
    induction entries with
    | nil => exact fun mem => .refl _ mem
    | cons entry rest ih =>
        intro mem
        rw [Program.run_forEach_cons]
        exact (flushAck_frees k ackPool entry mem).trans (ih _)
  rw [flushAcks, run_viewRx_bind, Program.run_bind', run_inbound]
  exact (loop _ mem).trans (.of_unseen (.of_same rfl rfl))

theorem controlSent_unseen (packets : List Packet) (i : Nat) (log : List RxEntry) :
    past i ((packets.map .controlSent).reverse ++ log) = past i log ∧
      history i ((packets.map .controlSent).reverse ++ log) = history i log := by
  induction packets generalizing log with
  | nil => exact ⟨rfl, rfl⟩
  | cons packet rest ih =>
      rw [List.map_cons, List.reverse_cons, List.append_assoc]
      obtain ⟨samePast, sameHistory⟩ := ih ([.controlSent packet] ++ log)
      rw [samePast, sameHistory]
      have other : RxEntry.controlSent packet ≠ .opened i := by rintro ⟨⟩
      exact ⟨past_cons_of_ne other log, history_cons_of_not_concerns other rfl⟩

theorem Unseen.flushControl (rx : Receiver) (controlTake : Nat) :
    Unseen rx (flushControl controlTake rx) where
  slots _ := rfl
  past i := (controlSent_unseen _ i rx.log).1
  history i := (controlSent_unseen _ i rx.log).2

/-- The slots that a step frees were closed. -/
theorem Frees.step {entries : List Nat} {before after : Memory} {task : Task}
    (frees : Frees entries before after)
    (closed : ∀ i ∈ entries, (before.rx.slots i).state = .closed) (i : Nat) :
    SessionStep k (before.session i) (.task task) (after.session i) := by
  rcases frees.session i with same | ⟨member, released, freed⟩
  · exact .of_same same
  · rw [freed]
    exact .freed task (closed i member) released

/-- The beginning of a poll, as each session sees it. -/
theorem beginPoll_session {mem : Memory} (accounts : Accounting k mem.rx) (i : Nat) :
    SessionStep k (mem.session i) (.task .beginPoll)
      ((beginPoll.run mem).2.session i) := by
  have frees := reapLoop_frees (mem.rx.awaitingRelease.length + 1) 0
    ⟨{ mem.rx with events := [] }, mem.tx⟩
  have began : Frees mem.rx.awaitingRelease mem (beginPoll.run mem).2 :=
    ⟨frees.tx, frees.session⟩
  exact began.step (fun j member => (accounts.partitioned.awaiting j member).2.1) i

/-- The end of a poll, as each session sees it. -/
theorem endPoll_session {mem : Memory} (accounts : Accounting k mem.rx)
    (ready : Ready mem) (env : FlushEnv) (i : Nat) :
    SessionStep k (mem.session i) (.task (.endPoll env))
      (((endPoll k env).run mem).2.session i) := by
  obtain ⟨accounts', _⟩ := (flushAcks_spec accounts env.ackPool).run rfl ready
  have acked := flushAcks_frees k env.ackPool mem
  rw [endPoll, Program.run_bind', run_inbound_bind]
  set flushed := ((flushAcks k env.ackPool).run mem).2
  have unseen := Unseen.flushControl flushed.rx env.controlTake
  have same : Memory.session ⟨flushControl env.controlTake flushed.rx, flushed.tx⟩ i =
      mem.session i := by
    rw [unseen.session]
    rcases acked.session i with same | ⟨member, _⟩
    · exact same
    · cases member
  rw [← same]
  refine (finalize_frees _).step ?_ i
  intro j member
  have listed := (accounts'.finalizing.mem_iff j).mp member
  exact ((flushed.rx.slots j).place_eq_finalizing_iff.mp listed.2).1

/-- The step lemma for tasks: each session makes one of the steps of `SessionStep`. -/
theorem Task.session {mem : Memory} (accounts : Accounting k mem.rx)
    (ready : Ready mem) (task : Task) (i : Nat) :
    SessionStep k (mem.session i) (.task task)
      (((task.code k).run mem).2.session i) := by
  cases task with
  | beginPoll => exact beginPoll_session accounts i
  | packet received => exact process_session accounts received i
  | endPoll env => exact endPoll_session accounts ready env i

end Tasks

end DpdkWrapper.Tcp
