import DpdkWrapper.Tcp.SendBounds

/-!
# What the data queue has taken, under interference

Whatever the peer sends and however the threads interleave, the segments that the data queue
has taken for a connection follow each other without gaps or overlaps, with at most one FIN at
the end, and the published `snd_nxt` is at or beyond the end of the last one.  Once the queue
has taken the FIN, `out_fin_sent` is set and `snd_nxt` is the number after it.

Three numbers are kept apart: how much of the argument of `send` has been published, how much
the queue has taken, and where the wire ends.  `Streaming` relates them during `send`, `FinOwed`
and `Finished` during `close`, and `SlotView.Covered` at all times.
-/

namespace DpdkWrapper.Tcp

open Threads Wire

/-- A FIN is among the segments. -/
def HasFin (segments : List TxSegment) : Prop :=
  ∃ segment ∈ segments, segment.flags &&& finFlag ≠ 0

/-- The segments, newest first, follow each other without gaps or overlaps, and nothing
follows a FIN. -/
inductive InSequence (base : BitVec 32) : List TxSegment → Prop
  | nil : InSequence base []
  | cons {segment : TxSegment} {older : List TxSegment}
      (seq : segment.seq = base + BitVec.ofNat 32 (spans older)) (unfinished : ¬HasFin older)
      (rest : InSequence base older) : InSequence base (segment :: older)

section Segments

variable {base start : BitVec 32} {mss first stop : Nat} {bytes : List Byte}
  {segment : TxSegment} {segments older : List TxSegment}

theorem not_hasFin_nil : ¬HasFin [] := by
  simp [HasFin]

theorem hasFin_cons : HasFin (segment :: older) ↔ segment.flags &&& finFlag ≠ 0 ∨ HasFin older := by
  simp [HasFin]

/-- A burst that starts where the line ends. -/
theorem InSequence.carries (line : InSequence start older) (unfinished : ¬HasFin older)
    (carries : Carries base mss bytes first segments stop)
    (here : base + BitVec.ofNat 32 first = start + BitVec.ofNat 32 (spans older)) :
    InSequence start (segments.reverse ++ older) ∧ ¬HasFin (segments.reverse ++ older) := by
  induction carries generalizing older with
  | nil => exact ⟨line, unfinished⟩
  | @cons off len stop segment rest _ _ inside seq payload noFin tail ih =>
      have length : segment.payload.length = len := by
        rw [payload, List.length_take, List.length_drop]
        omega
      have longer : spans (segment :: older) = spans older + len := by
        rw [spans_cons, seqSpan_of_noFin noFin, length, Nat.add_comm]
      rw [List.reverse_cons, List.append_assoc, List.singleton_append]
      have next : base + BitVec.ofNat 32 (off + len) =
          start + BitVec.ofNat 32 (spans (segment :: older)) := by
        rw [longer, BitVec.ofNat_add, ← BitVec.add_assoc, here, BitVec.add_assoc,
          ← BitVec.ofNat_add]
      exact ih (.cons (seq.trans here) unfinished line)
        (fun finished => (hasFin_cons.mp finished).elim (fun marked => marked noFin) unfinished)
          next

end Segments

/-! ## Reading the log -/

theorem wire_cons {i : Nat} {entry : TxEntry} (log : List TxEntry) (other : ¬entry = .opened i)
    (unsent : ∀ segment, entry ≠ .sent i segment) : wire i (entry :: log) = wire i log := by
  rw [wire, txSince_cons_of_ne other, List.filterMap_cons]
  cases entry with
  | sent owner segment =>
      have foreign : owner ≠ i := fun same => unsent segment (by rw [same])
      simp [foreign, wire]
  | _ => rfl

theorem wire_sent (i : Nat) (segment : TxSegment) (log : List TxEntry) :
    wire i (.sent i segment :: log) = segment :: wire i log := by
  rw [wire, txSince_cons_of_ne (by simp), List.filterMap_cons]
  simp [wire]

theorem Memory.wire_withSent (mem : Memory) (i : Nat) (segments : List TxSegment) :
    wire i (mem.withSent i segments).tx.log = segments.reverse ++ wire i mem.tx.log := by
  rw [Memory.withSent, ← List.map_reverse]
  dsimp only
  induction segments.reverse with
  | nil => rfl
  | cons segment rest ih =>
      rw [List.map_cons, List.cons_append, wire_sent, ih]
      rfl

theorem TxEntry.Of.wire {slot i : Nat} {entry : TxEntry} (about : entry.Of slot) (other : slot ≠ i)
    (log : List TxEntry) : wire i (entry :: log) = Tcp.wire i log := by
  apply wire_cons
  · rintro rfl
    exact about
  · rintro segment rfl
    exact other (Eq.symm about)

/-- Calls on other slots add nothing to the slot's segments. -/
theorem CallFrame.wire {slot i : Nat} {mem mem' : Memory}
    (frame : CallFrame slot mem mem') (other : slot ≠ i) :
    wire i mem'.tx.log = Tcp.wire i mem.tx.log := by
  obtain ⟨entries, same, about⟩ := frame.log
  rw [same]
  clear same
  induction entries with
  | nil => rfl
  | cons entry rest ih =>
      rw [List.cons_append, (about entry List.mem_cons_self).wire other]
      exact ih fun entry member => about entry (List.mem_cons_of_mem _ member)

theorem TxEntry.Proper.wire {conn : ConnId} {mem : Memory} {entry : TxEntry} (i : Nat)
    (proper : entry.Proper conn mem) :
    wire i (entry :: mem.tx.log) = Tcp.wire i mem.tx.log := by
  apply wire_cons
  · rintro rfl
    exact proper
  · rintro segment rfl
    exact proper

/-- A step of a call stores to the slot's outbound fields, or the queue takes segments. -/
theorem Uses.sends {i : Nat} {caller : Option ConnId} {mem mem' : Memory}
    (uses : Uses i caller mem mem') :
    wire i mem'.tx.log = wire i mem.tx.log ∨
      mem'.tx.slots i = mem.tx.slots i ∧ ∃ segments, spans segments < 2 ^ 31 ∧
        wire i mem'.tx.log = segments.reverse ++ wire i mem.tx.log := by
  cases caller with
  | none =>
      cases uses
      exact .inl rfl
  | some conn =>
      obtain ⟨frame, own⟩ := uses
      by_cases here : conn.slot = i
      · subst here
        cases own rfl with
        | returned entry proper => exact .inl (proper.wire _)
        | sent segments _ small => exact .inr ⟨rfl, segments, small, mem.wire_withSent _ segments⟩
        | stored => exact .inl rfl
        | released => exact .inl (wire_cons _ (by simp) (by simp))
      · exact .inl (frame.wire here)

/-! ## Send numbers and segments -/

/-- The number after the last one that the data queue has taken. -/
def SlotView.reached (view : SlotView) : BitVec 32 :=
  view.conn.iss + 1 + BitVec.ofNat 32 (spans view.wire)

/-- The segments of a connection are in line, and `snd_nxt` is `lag` beyond their end. -/
structure SlotView.Streams (view : SlotView) (lag : Nat) : Prop where
  line : InSequence (view.conn.iss + 1) view.wire
  sndNxt : view.out.sndNxt = view.reached + BitVec.ofNat 32 lag

/-- A connection that has not been accepted has sent nothing; of one that has been, `snd_nxt`
is beyond what the queue has taken by a bound that depends on `out_flags`, and not at all once
the queue has taken the FIN. -/
structure SlotView.Covered (most : BitVec 8 → Nat) (view : SlotView) : Prop where
  fresh : view.conn.state = .synReceived → view.resets = view.opens → view.wire = []
  covers : view.conn.state.accepted = true → ∃ lag ≤ most view.out.outFlags, view.Streams lag ∧
    (HasFin view.wire → lag = 0 ∧ hasFinSent view.out.outFlags = true)

section Views

variable {terms : Terms} {i lag : Nat} {view view' : SlotView} {most : BitVec 8 → Nat}

/-- A connection in its handshake has sent nothing. -/
theorem SlotStep.fresh (step : SlotStep terms i view view')
    (fresh : view.conn.state = .synReceived → view.resets = view.opens → view.wire = [])
    (before : view'.conn.state = .synReceived) (ready : view'.resets = view'.opens) :
    view'.wire = [] := by
  cases step with
  | keep keeps =>
      rcases keeps.state with ⟨same, _⟩ | ⟨_, accepted, _⟩
      · exact fresh (same ▸ before) ready
      · rw [before] at accepted
        cases accepted
  | opening _ _ same => exact absurd (same.symm.trans ready) (Nat.ne_of_lt (Nat.lt_succ_self _))
  | prepare new => exact fresh new ready
  | resetNxt new => exact fresh new ready
  | resetFlags => rfl
  | accept _ _ _ established =>
      rw [established] at before
      cases before
  | abort _ _ _ free =>
      rw [free] at before
      cases before
  | record seg accepted =>
      rw [recordAck_state] at before
      rw [before] at accepted
      cases accepted
  | publish accepted =>
      rw [show view.conn.state = .synReceived from before] at accepted
      cases accepted
  | release _ _ _ free =>
      rw [free] at before
      cases before

theorem SlotView.Continues.reached (continues : view.Continues terms view') :
    view'.reached = view.reached := by
  rw [SlotView.reached, SlotView.reached, continues.wire,
    show view'.conn.iss = view.conn.iss from congrArg (·.iss) continues.identity]

theorem SlotView.Streams.continues (streams : view.Streams lag)
    (continues : view.Continues terms view') : view'.Streams lag := by
  have sameIss : view'.conn.iss = view.conn.iss := congrArg (·.iss) continues.identity
  refine ⟨?_, ?_⟩
  · rw [continues.wire, sameIss]
    exact streams.line
  · rw [continues.out, continues.reached]
    exact streams.sndNxt

/-- The step lemma: the inbound thread keeps the published number at or ahead of what the driver
has taken. -/
theorem SlotStep.covered (step : SlotStep terms i view view') (stage : view.Stage)
    (covered : view.Covered most) : view'.Covered most := by
  refine ⟨step.fresh covered.fresh, fun after => ?_⟩
  rcases step.continues_or_begins stage after with continues | begins
  · obtain ⟨lag, small, streams, finished⟩ := covered.covers continues.accepted
    rw [continues.out, continues.wire]
    exact ⟨lag, small, streams.continues continues, finished⟩
  · have empty : view'.wire = [] := begins.wire.trans (covered.fresh begins.before begins.ready)
    refine ⟨0, Nat.zero_le _, ⟨?_, ?_⟩, ?_⟩
    · rw [empty]
      exact .nil
    · rw [begins.sndNxt, SlotView.reached, empty]
      simp
    · rw [empty]
      exact fun finished => absurd finished not_hasFin_nil

theorem SlotView.Covered.mono (covered : view.Covered most) {more : BitVec 8 → Nat}
    (le : ∀ flags, most flags ≤ more flags) : view.Covered more := by
  refine ⟨covered.fresh, fun accepted => ?_⟩
  obtain ⟨lag, small, rest⟩ := covered.covers accepted
  exact ⟨lag, Nat.le_trans small (le _), rest⟩

/-- The same segments, send numbers and flags. -/
theorem SlotView.Covered.congr (covered : view.Covered most) (conn : view'.conn = view.conn)
    (resets : view'.resets = view.resets) (opens : view'.opens = view.opens)
    (out : view'.out = view.out) (wire : view'.wire = view.wire) : view'.Covered most := by
  constructor
  · rw [conn, resets, opens, wire]
    exact covered.fresh
  · intro accepted
    rw [conn] at accepted
    obtain ⟨lag, small, streams, finished⟩ := covered.covers accepted
    rw [out, wire]
    refine ⟨lag, small, ⟨?_, ?_⟩, finished⟩
    · rw [conn, wire]
      exact streams.line
    · rw [out, SlotView.reached, conn, wire]
      exact streams.sndNxt

theorem SlotView.Streams.covered (streams : view.Streams lag) (small : lag ≤ most view.out.outFlags)
    (finished : HasFin view.wire → lag = 0 ∧ hasFinSent view.out.outFlags = true)
    (accepted : view.conn.state.accepted = true) : view.Covered most := by
  refine ⟨fun before => ?_, fun _ => ⟨lag, small, streams, finished⟩⟩
  rw [before] at accepted
  cases accepted

end Views

/-! ## Calls on the slot -/

section Stores

variable (mem : Memory) (conn : ConnId) (i : Nat)

theorem Memory.view_withSndNxt (value : BitVec 32) :
    (mem.withSndNxt i value).view i =
      { mem.view i with out := { mem.tx.slots i with sndNxt := value } } := by
  rw [Memory.view, Memory.withSndNxt_slots]
  rfl

theorem Memory.view_withOutFlags (value : BitVec 8) :
    (mem.withOutFlags i value).view i =
      { mem.view i with out := { mem.tx.slots i with outFlags := value } } := by
  rw [Memory.view, Memory.withOutFlags_slots]
  rfl

theorem Memory.view_withSent (segments : List TxSegment) :
    (mem.withSent i segments).view i =
      { mem.view i with wire := segments.reverse ++ wire i mem.tx.log } := by
  have frame : CallFrame i mem (mem.withSent i segments) :=
    ⟨rfl, fun _ _ => rfl, _, rfl, by simp [TxEntry.Of]⟩
  rw [Memory.view, Memory.wire_withSent, frame.resets]
  rfl

theorem Memory.view_withReleased (value : BitVec 8) :
    (mem.withReleased conn value).view conn.slot =
      { mem.view conn.slot with
        out := { mem.tx.slots conn.slot with outFlags := value } } := by
  rw [Memory.view, Memory.withReleased_slots]
  have sameWire : wire conn.slot (mem.withReleased conn value).tx.log =
      wire conn.slot mem.tx.log := wire_cons _ (by simp) (by simp)
  have sameResets : resets conn.slot (mem.withReleased conn value).tx.log =
      resets conn.slot mem.tx.log := resets_cons_of_ne (by simp) _
  rw [sameWire, sameResets]
  rfl

theorem TxEntry.Proper.view {mem : Memory} {conn : ConnId} {entry : TxEntry}
    (proper : entry.Proper conn mem) (i : Nat) :
    (⟨mem.rx, mem.tx.note entry⟩ : Memory).view i = mem.view i := by
  have sameResets : resets i (entry :: mem.tx.log) = resets i mem.tx.log := by
    apply resets_cons_of_ne
    rintro rfl
    exact proper
  rw [Memory.view, Memory.view]
  dsimp only [Sender.note]
  rw [proper.wire, sameResets]

end Stores

/-- During `send`: `published` bytes have been published and `taken` of them taken. -/
structure Streaming (i : Nat) (base : BitVec 32) (limit published taken : Nat)
    (mem : Memory) : Prop where
  small : limit < 2 ^ 31
  back : taken ≤ published
  within : published ≤ limit
  reached : (mem.view i).reached = base + BitVec.ofNat 32 taken
  streams : (mem.view i).Streams (published - taken)
  unfinished : ¬HasFin (mem.view i).wire

/-- During `close`: `snd_nxt` counts the FIN, and the queue has not taken it. -/
structure FinOwed (i : Nat) (seq : BitVec 32) (mem : Memory) : Prop where
  reached : (mem.view i).reached = seq
  streams : (mem.view i).Streams 1
  unfinished : ¬HasFin (mem.view i).wire

/-- After the stores of `close`, before and after the queue has taken the FIN. -/
def Finished (i : Nat) (seq : BitVec 32) : List TxSegment → Memory → Prop
  | [], mem => hasFinSent (mem.tx.slots i).outFlags = true ∧ FinOwed i seq mem
  | _ :: _, mem =>
      hasFinSent (mem.tx.slots i).outFlags = true ∧ (mem.view i).Streams 0

/-- What holds at every moment. -/
def AlwaysCovered (i : Nat) (mem : Memory) : Prop :=
  (mem.view i).Covered fun _ => 2 ^ 31 - 1

/-- What holds between calls. -/
def IdleCovered (i : Nat) (mem : Memory) : Prop :=
  (mem.view i).Covered finCount

section Calls

variable {k : TcpStack} {terms : Terms} {conn : ConnId} {i : Nat} {base seq : BitVec 32}
  {limit published taken off stop mss : Nat} {bytes : List Byte} {segments sent : List TxSegment}
  {mem mem' : Memory}

theorem IdleCovered.covers (rests : IdleCovered i mem) : AlwaysCovered i mem :=
  SlotView.Covered.mono rests fun flags => Nat.le_trans (finCount_le flags) (by decide)

theorem AlwaysCovered.inStep (ids : IdInvariant k i mem) (step : InStep terms mem mem')
    (covers : AlwaysCovered i mem) : AlwaysCovered i mem' :=
  (step.slot i).covered ids.stage covers

theorem IdleCovered.inStep (ids : IdInvariant k i mem) (step : InStep terms mem mem')
    (rests : IdleCovered i mem) : IdleCovered i mem' :=
  (step.slot i).covered ids.stage rests

/-- Calls on other slots. -/
theorem SlotView.Covered.frame {most : BitVec 8 → Nat} {slot : Nat}
    (covered : (mem.view i).Covered most) (frame : CallFrame slot mem mem')
    (other : slot ≠ i) : (mem'.view i).Covered most :=
  have step := frame.outStep.slot i
  covered.congr step.conn step.resets step.opens (frame.slots i (Ne.symm other)) (frame.wire other)

theorem Streaming.continues (streaming : Streaming i base limit published taken mem)
    (continues : (mem.view i).Continues terms (mem'.view i)) :
    Streaming i base limit published taken mem' where
  small := streaming.small
  back := streaming.back
  within := streaming.within
  reached := continues.reached.trans streaming.reached
  streams := streaming.streams.continues continues
  unfinished := by
    rw [continues.wire]
    exact streaming.unfinished

theorem FinOwed.continues (owed : FinOwed i seq mem)
    (continues : (mem.view i).Continues terms (mem'.view i)) : FinOwed i seq mem' where
  reached := continues.reached.trans owed.reached
  streams := owed.streams.continues continues
  unfinished := by
    rw [continues.wire]
    exact owed.unfinished

theorem Finished.continues (finished : Finished i seq sent mem)
    (continues : (mem.view i).Continues terms (mem'.view i)) :
    Finished i seq sent mem' := by
  have sameOut : mem'.tx.slots i = mem.tx.slots i := continues.out
  cases sent with
  | nil =>
      rw [Finished, sameOut]
      exact ⟨finished.1, finished.2.continues continues⟩
  | cons =>
      rw [Finished, sameOut]
      exact ⟨finished.1, finished.2.continues continues⟩

/-- Not only during `send`, but for all the time. -/
theorem Streaming.covers (streaming : Streaming i base limit published taken mem)
    (accepted : (mem.rx.slots i).state.accepted = true) : AlwaysCovered i mem := by
  have small := streaming.small
  have within := streaming.within
  refine streaming.streams.covered ?_ (fun finished => absurd finished streaming.unfinished)
    accepted
  show published - taken ≤ 2 ^ 31 - 1
  omega

/-- At the start of `send` nothing is published that has not been taken. -/
theorem Streaming.begins (rests : IdleCovered i mem)
    (accepted : (mem.rx.slots i).state.accepted = true)
    (unsent : hasFinSent (mem.tx.slots i).outFlags = false)
    (same : (mem.tx.slots i).sndNxt = base)
    (fits : limit ≤ windowSpace (mem.rx.slots i).sendWindow base) :
    Streaming i base limit 0 0 mem := by
  obtain ⟨lag, small, streams, finished⟩ := SlotView.Covered.covers rests accepted
  have none : lag = 0 := Nat.le_zero.mp (Nat.le_trans small
    (Nat.le_of_eq (finCount_eq_zero unsent)))
  subst none
  have unfinished : ¬HasFin (mem.view i).wire := by
    intro some
    have finSent : hasFinSent (mem.tx.slots i).outFlags = true := (finished some).2
    rw [unsent] at finSent
    cases finSent
  have sndNxt : (mem.tx.slots i).sndNxt = _ := streams.sndNxt
  refine ⟨Nat.lt_of_le_of_lt fits (windowSpace_lt _ _), Nat.le_refl _, Nat.zero_le _, ?_, streams,
    unfinished⟩
  rw [← same, sndNxt, BitVec.add_zero, BitVec.add_zero]

/-- A burst is published before it is sent. -/
theorem Streaming.publish (streaming : Streaming i base limit published taken mem)
    (more : taken ≤ off) (within : off ≤ limit) :
    Streaming i base limit off taken (mem.withSndNxt i (base + BitVec.ofNat 32 off)) := by
  have streams := streaming.streams
  have reached := streaming.reached
  refine ⟨streaming.small, more, within, ?_, ?_, ?_⟩
  all_goals rw [Memory.view_withSndNxt]
  · exact reached
  · refine ⟨streams.line, ?_⟩
    change base + BitVec.ofNat 32 off = (mem.view i).reached + BitVec.ofNat 32 (off - taken)
    rw [reached, BitVec.add_assoc, ← BitVec.ofNat_add, Nat.add_sub_cancel' more]
  · exact streaming.unfinished

/-- The driver takes some segments of the burst, in order. -/
theorem Streaming.transmit (streaming : Streaming i base limit published taken mem)
    (carries : Carries base mss bytes taken segments stop) (inside : stop ≤ published) :
    Streaming i base limit published stop (mem.withSent i segments) := by
  have streams := streaming.streams
  have reached := streaming.reached
  have grows := carries.le
  obtain ⟨line, unfinished⟩ := streams.line.carries streaming.unfinished carries reached.symm
  have further : (mem.view i).conn.iss + 1 +
      BitVec.ofNat 32 (spans (segments.reverse ++ (mem.view i).wire)) =
      base + BitVec.ofNat 32 stop := by
    rw [spans_append, spans_reverse, carries.spans, Nat.add_comm, BitVec.ofNat_add,
      ← BitVec.add_assoc, show (mem.view i).conn.iss + 1 + BitVec.ofNat 32 (spans (mem.view i).wire) = _ from
        reached,
      BitVec.add_assoc, ← BitVec.ofNat_add, Nat.add_sub_cancel' grows]
  refine ⟨streaming.small, inside, streaming.within, ?_, ?_, ?_⟩
  all_goals rw [Memory.view_withSent]
  · exact further
  · refine ⟨line, ?_⟩
    change (mem.view i).out.sndNxt = (mem.view i).conn.iss + 1 +
      BitVec.ofNat 32 (spans (segments.reverse ++ (mem.view i).wire)) +
        BitVec.ofNat 32 (published - stop)
    rw [further, streams.sndNxt, reached, BitVec.add_assoc, BitVec.add_assoc, ← BitVec.ofNat_add,
      ← BitVec.ofNat_add, Nat.add_sub_cancel' streaming.back, Nat.add_sub_cancel' inside]
  · exact unfinished

theorem Streaming.ends (streaming : Streaming i base limit taken taken mem)
    (accepted : (mem.rx.slots i).state.accepted = true) : IdleCovered i mem := by
  have streams := streaming.streams
  rw [Nat.sub_self] at streams
  exact streams.covered (Nat.zero_le _) (fun finished => absurd finished streaming.unfinished)
    accepted

/-- The first store of `close`: the number of the FIN is published. -/
theorem FinOwed.begins (rests : IdleCovered i mem)
    (accepted : (mem.rx.slots i).state.accepted = true)
    (unsent : hasFinSent (mem.tx.slots i).outFlags = false) :
    FinOwed i (mem.tx.slots i).sndNxt
      (mem.withSndNxt i ((mem.tx.slots i).sndNxt + 1)) := by
  have streaming : Streaming i (mem.tx.slots i).sndNxt 0 0 0 mem :=
    Streaming.begins rests accepted unsent rfl (Nat.zero_le _)
  have reached : (mem.view i).reached = (mem.tx.slots i).sndNxt :=
    streaming.reached.trans (BitVec.add_zero _)
  refine ⟨?_, ?_, ?_⟩
  all_goals rw [Memory.view_withSndNxt]
  · exact reached
  · refine ⟨streaming.streams.line, ?_⟩
    change (mem.tx.slots i).sndNxt + 1 = (mem.view i).reached + 1
    rw [reached]
  · exact streaming.unfinished

theorem FinOwed.covers (owed : FinOwed i seq mem)
    (accepted : (mem.rx.slots i).state.accepted = true) : AlwaysCovered i mem :=
  owed.streams.covered (by decide : 1 ≤ 2 ^ 31 - 1)
    (fun finished => absurd finished owed.unfinished) accepted

/-- The second store of `close`: the flag is published. -/
theorem FinOwed.mark (owed : FinOwed i seq mem) :
    Finished i seq [] (mem.withOutFlags i ((mem.tx.slots i).outFlags ||| outFinSent)) := by
  refine ⟨?_, ?_, ?_, ?_⟩
  · rw [Memory.withOutFlags_slots]
    exact hasFinSent_or_finSent _
  all_goals rw [Memory.view_withOutFlags]
  · exact owed.reached
  · exact ⟨owed.streams.line, owed.streams.sndNxt⟩
  · exact owed.unfinished

/-- The driver takes the FIN. -/
theorem Finished.finish {segment : TxSegment} (finished : Finished i seq [] mem)
    (fin : IsFin seq segment) : Finished i seq [segment] (mem.withSent i [segment]) := by
  obtain ⟨finSent, owed⟩ := finished
  refine ⟨finSent, ?_⟩
  have further : spans (segment :: (mem.view i).wire) = spans (mem.view i).wire + 1 := by
    rw [spans_cons, fin.seqSpan, Nat.add_comm]
  rw [Memory.view_withSent]
  refine ⟨.cons (fin.seq.trans owed.reached.symm) owed.unfinished owed.streams.line, ?_⟩
  change (mem.view i).out.sndNxt =
    (mem.view i).conn.iss + 1 + BitVec.ofNat 32 (spans (segment :: (mem.view i).wire)) + 0
  rw [owed.streams.sndNxt, further, BitVec.ofNat_add, ← BitVec.add_assoc]
  exact (BitVec.add_zero _).symm

theorem Finished.settles (finished : Finished i seq sent mem)
    (accepted : (mem.rx.slots i).state.accepted = true) : IdleCovered i mem := by
  cases sent with
  | nil =>
      obtain ⟨finSent, owed⟩ := finished
      refine owed.streams.covered (Nat.le_of_eq (finCount_eq_one finSent).symm) ?_ accepted
      exact fun some => absurd some owed.unfinished
  | cons =>
      obtain ⟨finSent, streams⟩ := finished
      exact streams.covered (Nat.zero_le _) (fun _ => ⟨rfl, finSent⟩) accepted

theorem IdleCovered.withReleased (rests : IdleCovered conn.slot mem) :
    IdleCovered conn.slot (mem.withReleased conn
      ((mem.tx.slots conn.slot).outFlags ||| outReleased)) := by
  have covered : (mem.view conn.slot).Covered finCount := rests
  have sameFin := hasFinSent_or_released (mem.tx.slots conn.slot).outFlags
  rw [IdleCovered, Memory.view_withReleased]
  refine ⟨covered.fresh, fun accepted => ?_⟩
  obtain ⟨lag, small, streams, finished⟩ := covered.covers accepted
  dsimp only
  rw [finCount, sameFin]
  exact ⟨lag, small, ⟨streams.line, streams.sndNxt⟩, finished⟩

end Calls

/-- Calls on the slot: one case for each store of `send` and `close`. -/
theorem covers_obligations (k : TcpStack) (conn : ConnId) :
    CallObligations k conn
      (callProtocol conn.slot (fun _ _ => True) (AlwaysCovered conn.slot) (some conn))
      (IdleCovered conn.slot)
      (fun base limit published taken _ => Streaming conn.slot base limit published taken)
      (FinOwed conn.slot) (Finished conn.slot) := by
  constructor
  case toReadObligations =>
    refine callProtocol_looks (fun _ _ ids step _ => IdleCovered.inStep ids step) ?_
    intro mem entry proper
    rw [AlwaysCovered, AlwaysCovered, IdleCovered, IdleCovered, proper.view]
    exact ⟨id, id⟩
  case begins =>
    intro mem base limit _ owns rests unsent same fits
    exact Streaming.begins rests owns.held.1 unsent same fits
  case sending_stable =>
    intro base limit published taken sent mem later known owns moves streaming
    refine Interferes.keeps _ ?_ known owns moves streaming
    exact fun _ _ ids owns step streaming =>
      streaming.continues (owns.continues ids rfl step)
  case publish =>
    intro base limit off taken sent mem known owns streaming more within after _ own
    have published := streaming.publish (Nat.le_of_lt more) within
    exact ⟨own.guarantees fun _ => published.covers owns.held.1, published⟩
  case transmit =>
    intro base mss bytes limit off taken stop sent segments mem known owns streaming carries
      inside _ after _ own
    have transmitted := streaming.transmit carries inside
    exact ⟨own.guarantees fun _ => transmitted.covers owns.held.1, transmitted⟩
  case rollBack =>
    intro base limit off taken sent mem known owns streaming back within after _ own
    have rolledBack := streaming.publish (Nat.le_refl taken) (Nat.le_trans back within)
    exact ⟨own.guarantees fun _ => rolledBack.covers owns.held.1, rolledBack⟩
  case ends =>
    intro base mss bytes limit count sent mem _ owns _ _ streaming
    exact streaming.ends owns.held.1
  case advance =>
    intro mem known owns rests unsent seq after _ own
    have owed := FinOwed.begins rests owns.held.1 unsent
    exact ⟨own.guarantees fun _ => owed.covers owns.held.1, owed⟩
  case closing_stable =>
    intro seq mem later known owns moves owed
    refine Interferes.keeps _ ?_ known owns moves owed
    exact fun _ _ ids owns step owed => owed.continues (owns.continues ids rfl step)
  case mark =>
    intro seq mem known owns owed after _ own
    have marked := owed.mark
    exact ⟨own.guarantees fun _ => (marked.settles owns.held.1).covers, marked⟩
  case finished_stable =>
    intro seq sent mem later known owns moves finished
    refine Interferes.keeps _ ?_ known owns moves finished
    exact fun _ _ ids owns step finished =>
      finished.continues (owns.continues ids rfl step)
  case finish =>
    intro seq segment mem known owns finished fin after _ own
    have sent := finished.finish fin
    exact ⟨own.guarantees fun _ => (sent.settles owns.held.1).covers, sent⟩
  case settles =>
    intro seq sent mem _ owns finished
    exact finished.settles owns.held.1
  case release =>
    intro mem known owns rests after _ own
    have released := rests.withReleased
    exact ⟨own.guarantees fun _ => released.covers, released⟩

/-- The obligations for one slot, from those for calls. -/
theorem obligations_covers (k : TcpStack) (i : Nat) :
    SlotObligations k i (fun _ _ => True) (AlwaysCovered i) (IdleCovered i)
      (fun base limit published taken _ => Streaming i base limit published taken) (FinOwed i)
      (Finished i) where
  keeps _ _ ids step _ := ⟨AlwaysCovered.inStep ids step, IdleCovered.inStep ids step⟩
  spares _ _ _ frame other := ⟨fun covers => SlotView.Covered.frame covers frame other,
    fun rests => SlotView.Covered.frame rests frame other⟩
  obligations := by
    rintro conn rfl
    exact covers_obligations k conn

/-! ## All interleavings -/

theorem initial_rests (k : TcpStack) (i : Nat) : IdleCovered i (Memory.initial k) :=
  ⟨fun _ _ => rfl, by rintro ⟨⟩⟩

section Runs

variable {k : TcpStack} {admits : Memory → Task → Prop} {system : System k admits} {i : Nat}

/-- The run lemma: in every interleaving, as long as the slot is not opened too often. -/
theorem System.Reachable.covers (run : system.Reachable) (few : FewOpens i system.state) :
    IdInvariant k i system.state ∧ AlwaysCovered i system.state :=
  (obligations_covers k i).invariant (fun _ _ => id) (fun _ _ _ => trivial)
    ⟨(initial_rests k i).covers, initial_rests k i⟩ (run.few few)

/-- In every interleaving, with any peer: what the data queue has taken for a connection is
one line of segments, `snd_nxt` is at or beyond its end, and once the FIN is on it,
`out_fin_sent` is set and `snd_nxt` is its end. -/
theorem published_number_covers_what_was_taken (run : system.Reachable)
    (few : FewOpens i system.state) (accepted : (system.state.rx.slots i).state.accepted = true) :
    let base := (system.state.rx.slots i).iss + 1
    let out := system.state.tx.slots i
    let line := wire i system.state.tx.log
    InSequence base line ∧
      (∃ published, out.sndNxt = base + BitVec.ofNat 32 published ∧ spans line ≤ published ∧
        published < spans line + 2 ^ 31) ∧
      (HasFin line → hasFinSent out.outFlags = true ∧
        out.sndNxt = base + BitVec.ofNat 32 (spans line)) := by
  obtain ⟨lag, small, streams, finished⟩ :=
    SlotView.Covered.covers (run.covers few).2 accepted
  have sndNxt : (system.state.tx.slots i).sndNxt = _ := streams.sndNxt
  refine ⟨streams.line, ⟨spans (wire i system.state.tx.log) + lag, ?_, ?_, ?_⟩, ?_⟩
  · rw [sndNxt, SlotView.reached, BitVec.add_assoc _ (BitVec.ofNat 32 _), ← BitVec.ofNat_add]
    rfl
  · exact Nat.le_add_right _ _
  · exact Nat.add_lt_add_left (Nat.lt_of_le_of_lt small (by decide)) _
  · intro some
    obtain ⟨none, finSent⟩ := finished some
    rw [sndNxt, none, BitVec.add_zero]
    exact ⟨finSent, rfl⟩

end Runs

/-- Of two segments the data queue has taken one, and then the FIN: `snd_nxt` is the end of
the first two bytes and the FIN. -/
theorem published_number_covers_what_was_taken_of_close :
    ∃ system : System shortSegments anyTask, system.Reachable ∧
      (wire 0 system.state.tx.log).map (fun segment => segment.payload) = [[], [1, 2]] ∧
      hasFinSent (system.state.tx.slots 0).outFlags = true ∧
      (system.state.tx.slots 0).sndNxt =
        (system.state.rx.slots 0).iss + 1 + BitVec.ofNat 32
        (spans (wire 0 system.state.tx.log)) := by
  have sent := shortSegmentsServing_reachable.call (.send ⟨0, 1⟩ [1, 2, 3, 4] .takesOne)
    shortSegmentsServing_accepted
  have closed := sent.call (.close ⟨0, 1⟩ .unfailing) (shortSegmentsServing_accepted.call _)
  refine ⟨_, closed, by decide +kernel, ?_⟩
  refine (published_number_covers_what_was_taken closed ?_ (by decide +kernel)).2.2 ?_
  · unfold FewOpens
    decide +kernel
  · unfold HasFin
    decide +kernel

end DpdkWrapper.Tcp
