import DpdkWrapper.Tcp.Ownership
import DpdkWrapper.Tcp.SendWindow

/-!
# Send numbers under interference

`send` publishes `snd_nxt` before the burst and takes it back if the queue has taken less.
Meanwhile ACKs are validated against the published number.  What is in flight is at most a
16-bit window and our FIN as long as no roll-back takes `snd_nxt` behind an ACK that has been
recorded; a peer that acknowledges what was published but not sent brings exactly this about.

`SendBounds` is about the numbers at one moment, `SendingBounds` about them during `send`, and
`IdleBounds` about them between calls.  The distance is measured from the recorded and from the
published number, since the receiver publishes a window after it has recorded the ACK.
-/

namespace DpdkWrapper.Tcp

open Threads Wire

/-- The send numbers while both threads are running: the published window may be older than
the recorded ACK, but both are at most `most` behind `snd_nxt`. -/
structure SendBounds (numbers : TcpConnection.Numbers) (sndNxt : BitVec 32)
    (most : Nat) : Prop where
  wnd : numbers.sndWnd.toNat < 65536
  size : (windowSize numbers.sendWindow).toNat < 65536
  flight : Serial.dist (windowUna numbers.sendWindow) sndNxt ≤ most
  behind : Serial.dist numbers.sndUna sndNxt ≤
    Serial.dist (windowUna numbers.sendWindow) sndNxt

namespace SendBounds

variable {numbers : TcpConnection.Numbers} {sndNxt : BitVec 32} {most : Nat}

theorem mono (paced : SendBounds numbers sndNxt most) {more : Nat} (le : most ≤ more) :
    SendBounds numbers sndNxt more :=
  ⟨paced.wnd, paced.size, Nat.le_trans paced.flight le, paced.behind⟩

theorem unacknowledged (paced : SendBounds numbers sndNxt most) :
    Serial.dist numbers.sndUna sndNxt ≤ most :=
  Nat.le_trans paced.behind paced.flight

/-- Publishing more takes the numbers that far apart. -/
theorem advance (paced : SendBounds numbers sndNxt most) {count : Nat}
    (small : most + count < 2 ^ 32) :
    SendBounds numbers (sndNxt + BitVec.ofNat 32 count) (most + count) := by
  have flight := paced.flight
  have behind := paced.behind
  have window : Serial.dist (windowUna numbers.sendWindow) (sndNxt + BitVec.ofNat 32 count) =
      Serial.dist (windowUna numbers.sendWindow) sndNxt + count := Serial.dist_advance (by omega)
  have una : Serial.dist numbers.sndUna (sndNxt + BitVec.ofNat 32 count) =
      Serial.dist numbers.sndUna sndNxt + count := Serial.dist_advance (by omega)
  refine ⟨paced.wnd, paced.size, ?_, ?_⟩
  · omega
  · omega

/-- A roll-back that does not go behind the recorded ACK. -/
theorem retreat {count : Nat}
    (paced : SendBounds numbers (sndNxt + BitVec.ofNat 32 count) (most + count))
    (inside : count ≤ Serial.dist numbers.sndUna (sndNxt + BitVec.ofNat 32 count)) :
    SendBounds numbers sndNxt most := by
  have flight := paced.flight
  have behind := paced.behind
  have una := Serial.dist_retreat inside
  have window := Serial.dist_retreat (Nat.le_trans inside behind)
  refine ⟨paced.wnd, paced.size, ?_, ?_⟩
  · omega
  · omega

theorem space (paced : SendBounds numbers sndNxt most) (small : most ≤ 65536) :
    windowSpace numbers.sendWindow sndNxt =
      (windowSize numbers.sendWindow).toNat -
        Serial.dist (windowUna numbers.sendWindow) sndNxt :=
  windowSpace_eq paced.size (Nat.le_trans paced.flight small)

theorem fresh {una wnd : BitVec 32} (small : wnd.toNat < 65536) :
    SendBounds ⟨una, wnd, packWindow una wnd⟩ una 0 := by
  refine ⟨small, ?_, ?_, ?_⟩
  · rwa [windowSize_packWindow]
  · rw [windowUna_packWindow, Serial.dist_self]
  · rw [Serial.dist_self]
    exact Nat.zero_le _

end SendBounds

/-! ## What the inbound thread does to the send numbers -/

/-- The send numbers after a step of the inbound thread. -/
inductive Acks (terms : Terms) (c : TcpConnection) (sndNxt : BitVec 32) :
    TcpConnection.Numbers → Prop
  | kept : Acks terms c sndNxt c.numbers
  | recorded (seg : Segment) (admitted : terms.acks c.identity seg.ack)
      (valid : seqGt seg.ack sndNxt = false) : Acks terms c sndNxt (recordAck seg c).numbers
  | published : Acks terms c sndNxt ⟨c.sndUna, c.sndWnd, packWindow c.sndUna c.sndWnd⟩

/-- A connection that has been accepted goes on. -/
structure SlotView.Continues (terms : Terms) (view view' : SlotView) : Prop where
  accepted : view.conn.state.accepted = true
  identity : view'.conn.identity = view.conn.identity
  out : view'.out = view.out
  wire : view'.wire = view.wire
  acks : Acks terms view.conn view.out.sndNxt view'.conn.numbers

/-- A connection is accepted. -/
structure SlotView.Begins (view view' : SlotView) : Prop where
  before : view.conn.state = .synReceived
  ready : view.resets = view.opens
  flags : view'.out.outFlags = 0
  sndNxt : view'.out.sndNxt = view'.conn.iss + 1
  una : view'.conn.sndUna = view'.conn.iss + 1
  wnd : view'.conn.sndWnd.toNat < 65536
  window : view'.conn.sendWindow = packWindow view'.conn.sndUna view'.conn.sndWnd
  wire : view'.wire = view.wire

/-- A step that leaves a connection accepted goes on with it, or has just accepted it. -/
theorem SlotStep.continues_or_begins {terms : Terms} {i : Nat} {view view' : SlotView}
    (step : SlotStep terms i view view') (stage : view.Stage)
    (after : view'.conn.state.accepted = true) :
    view.Continues terms view' ∨ view.Begins view' := by
  have contradiction : ∀ state : TcpState, state.accepted = true →
      state = .synReceived → False := by
    rintro _ accepted rfl
    cases accepted
  cases step with
  | keep keeps =>
      refine Or.inl ⟨?_, keeps.identity, rfl, rfl, ?_⟩
      · rcases keeps.state with ⟨same, _⟩ | ⟨before, _, _⟩
        · exact same ▸ after
        · exact before
      · rw [keeps.numbers]
        exact .kept
  | opening _ _ _ state => exact (contradiction _ after state).elim
  | prepare _ _ new => exact (contradiction _ after new).elim
  | resetNxt before => exact (contradiction _ after before).elim
  | resetFlags before => exact (contradiction _ after before).elim
  | @accept c before ready identity _ una wnd window =>
      have reset := stage.reset before ready
      have sameIss : c.iss = view.conn.iss := congrArg (·.iss) identity
      exact Or.inr ⟨before, ready, reset.1, reset.2.trans (by rw [sameIss]), una, wnd, window, rfl⟩
  | abort _ _ _ free =>
      rw [free] at after
      cases after
  | record seg accepted admitted valid =>
      exact Or.inl ⟨accepted, recordAck_identity seg _, rfl, rfl, .recorded seg admitted valid⟩
  | publish accepted => exact Or.inl ⟨accepted, rfl, rfl, rfl, .published⟩
  | release _ _ _ free =>
      rw [free] at after
      cases after

/-- A recorded ACK brings the numbers closer together. -/
theorem SendBounds.acks {terms : Terms} {c : TcpConnection} {sndNxt : BitVec 32} {most : Nat}
    {numbers : TcpConnection.Numbers} (paced : SendBounds c.numbers sndNxt most)
    (small : most ≤ 65536) (acks : Acks terms c sndNxt numbers) :
    SendBounds numbers sndNxt most := by
  cases acks with
  | kept => exact paced
  | recorded seg _ valid =>
      have flight : Serial.dist c.sndUna sndNxt ≤ 65536 := Nat.le_trans paced.unacknowledged small
      have acked : Acknowledged seg c ⟨sndNxt, 0⟩ := acknowledged flight valid
      obtain ⟨una, wnd, wl1, wl2, same⟩ := recordAck_eq seg c
      have published : (recordAck seg c).sendWindow = c.sendWindow := by rw [same]
      refine ⟨?_, ?_, ?_, ?_⟩
      · change (recordAck seg c).sndWnd.toNat < 65536
        rcases recordAck_sndWnd seg c with fresh | kept
        · rw [fresh]
          exact setWidth_window_lt seg.window
        · rw [kept]
          exact paced.wnd
      · change (windowSize (recordAck seg c).sendWindow).toNat < 65536
        rw [published]
        exact paced.size
      · change Serial.dist (windowUna (recordAck seg c).sendWindow) sndNxt ≤ most
        rw [published]
        exact paced.flight
      · change Serial.dist (recordAck seg c).sndUna sndNxt ≤
          Serial.dist (windowUna (recordAck seg c).sendWindow) sndNxt
        rw [published]
        exact Nat.le_trans acked.le paced.behind
  | published =>
      refine ⟨paced.wnd, ?_, ?_, ?_⟩
      · rw [windowSize_packWindow]
        exact paced.wnd
      · rw [windowUna_packWindow]
        exact paced.unacknowledged
      · rw [windowUna_packWindow]

/-- The send numbers of an accepted connection; how much may be in flight depends on
`out_flags`. -/
def SlotView.Flowing (most : BitVec 8 → Nat) (view : SlotView) : Prop :=
  view.conn.state.accepted = true →
    SendBounds view.conn.numbers view.out.sndNxt (most view.out.outFlags)

/-- The step lemma for one slot: no step of the inbound thread takes the numbers further apart. -/
theorem SlotStep.flowing {terms : Terms} {i : Nat} {view view' : SlotView}
    (step : SlotStep terms i view view') (stage : view.Stage) {most : BitVec 8 → Nat}
    (small : ∀ flags, most flags ≤ 65536) (flowing : view.Flowing most) : view'.Flowing most := by
  intro after
  rcases step.continues_or_begins stage after with continues | begins
  · rw [continues.out]
    exact (flowing continues.accepted).acks (small _) continues.acks
  · rw [begins.sndNxt, ← begins.una, TcpConnection.numbers, begins.window]
    exact (SendBounds.fresh begins.wnd).mono (Nat.zero_le _)

/-- While the application holds the connection, it goes on. -/
theorem SlotStep.continues {terms : Terms} {i : Nat} {view view' : SlotView}
    (step : SlotStep terms i view view') (stage : view.Stage) (guarded : terms.guarded i)
    (held : view.Held) : view.Continues terms view' := by
  rcases step.continues_or_begins stage (step.spares guarded held).held.1 with continues | begins
  · exact continues
  · exact absurd begins.before (TcpState.accepted_iff.mp held.1).2

/-! ## What calls do to the send numbers -/

/-- The send numbers of slot `i`. -/
def Memory.SendBounds (mem : Memory) (i most : Nat) : Prop :=
  Tcp.SendBounds (mem.rx.slots i).numbers (mem.tx.slots i).sndNxt most

/-- The send numbers during `send`: `published` bytes of at most `limit` have been published,
and the rest fits. -/
structure SendingBounds (i : Nat) (base : BitVec 32) (limit published : Nat) (mem : Memory) :
    Prop where
  small : limit ≤ 65535
  within : published ≤ limit
  sndNxt : (mem.tx.slots i).sndNxt = base + BitVec.ofNat 32 published
  paced : mem.SendBounds i (65535 - limit + published)

section Calls

variable {i : Nat} {base : BitVec 32} {limit published taken off : Nat} {mem : Memory}

theorem Memory.SendBounds.withSndNxt (mem : Memory) (i : Nat) (value : BitVec 32) (most : Nat) :
    (mem.withSndNxt i value).SendBounds i most ↔
      Tcp.SendBounds (mem.rx.slots i).numbers value most := by
  rw [Memory.SendBounds, Memory.withSndNxt_slots]
  rfl

/-- At the start of `send` the bytes fit the window. -/
theorem SendingBounds.begins (paced : mem.SendBounds i 65535)
    (same : (mem.tx.slots i).sndNxt = base)
    (fits : limit ≤ windowSpace (mem.rx.slots i).sendWindow base) :
    SendingBounds i base limit 0 mem := by
  have flight := paced.flight
  have size := paced.size
  have space := paced.space (by omega)
  rw [same] at flight space
  rw [show (mem.rx.slots i).sendWindow = (mem.rx.slots i).numbers.sendWindow from rfl,
    space] at fits
  refine ⟨by omega, Nat.zero_le _, by rw [same, BitVec.add_zero], paced.wnd, paced.size,
    ?_, paced.behind⟩
  rw [same]
  omega

/-- A burst is published before it is sent. -/
theorem SendingBounds.publish (pacing : SendingBounds i base limit taken mem)
    (more : taken ≤ off)
    (within : off ≤ limit) :
    SendingBounds i base limit off (mem.withSndNxt i (base + BitVec.ofNat 32 off)) := by
  have small := pacing.small
  refine ⟨small, within, by rw [Memory.withSndNxt_slots], ?_⟩
  rw [Memory.SendBounds.withSndNxt]
  have advanced := pacing.paced.advance (by omega : 65535 - limit + taken + (off - taken) < 2 ^ 32)
  rwa [pacing.sndNxt, BitVec.add_assoc, ← BitVec.ofNat_add, Nat.add_sub_cancel' more,
    Nat.add_assoc, Nat.add_sub_cancel' more] at advanced

/-- A roll-back that does not go behind the recorded ACK. -/
theorem SendingBounds.rollBack (pacing : SendingBounds i base limit off mem) (back : taken ≤ off)
    (inside : off - taken ≤
      Serial.dist (mem.rx.slots i).sndUna (mem.tx.slots i).sndNxt) :
    SendingBounds i base limit taken (mem.withSndNxt i (base + BitVec.ofNat 32 taken)) := by
  refine ⟨pacing.small, Nat.le_trans back pacing.within, by rw [Memory.withSndNxt_slots], ?_⟩
  rw [Memory.SendBounds.withSndNxt]
  have split : base + BitVec.ofNat 32 off =
      base + BitVec.ofNat 32 taken + BitVec.ofNat 32 (off - taken) := by
    rw [BitVec.add_assoc, ← BitVec.ofNat_add, Nat.add_sub_cancel' back]
  have paced := pacing.paced
  rw [Memory.SendBounds, pacing.sndNxt, split, ← Nat.add_sub_cancel' back, ← Nat.add_assoc,
    Nat.add_sub_cancel' back] at paced
  rw [pacing.sndNxt, split] at inside
  exact paced.retreat inside

theorem SendingBounds.le (pacing : SendingBounds i base limit published mem) :
    mem.SendBounds i 65535 := by
  have small := pacing.small
  have within := pacing.within
  exact pacing.paced.mono (by omega)

end Calls

/-! ## All the time, and between calls -/

/-- What holds at every moment. -/
def AlwaysBounds (i : Nat) (mem : Memory) : Prop :=
  (mem.view i).Flowing fun _ => 65536

/-- What holds between calls. -/
def IdleBounds (i : Nat) (mem : Memory) : Prop :=
  (mem.view i).Flowing fun flags => 65535 + finCount flags

section SendBounds

variable {k : TcpStack} {terms : Terms} {conn : ConnId} {i most : Nat} {mem mem' : Memory}

theorem Memory.SendBounds.bounded (paced : mem.SendBounds i most) (small : most ≤ 65536) :
    AlwaysBounds i mem :=
  fun _ => paced.mono small

theorem Memory.SendBounds.settled
    (paced : mem.SendBounds i (65535 + finCount (mem.tx.slots i).outFlags)) :
    IdleBounds i mem :=
  fun _ => paced

theorem IdleBounds.paced (settled : IdleBounds i mem)
    (accepted : (mem.rx.slots i).state.accepted = true) :
    mem.SendBounds i (65535 + finCount (mem.tx.slots i).outFlags) :=
  settled accepted

theorem IdleBounds.bounded (settled : IdleBounds i mem) : AlwaysBounds i mem :=
  fun accepted => (settled accepted).mono (Nat.add_le_add_left (finCount_le _) 65535)

/-- The inbound thread's steps, between calls. -/
theorem IdleBounds.inStep (ids : IdInvariant k i mem) (step : InStep terms mem mem')
    (settled : IdleBounds i mem) : IdleBounds i mem' :=
  (step.slot i).flowing ids.stage (fun flags => Nat.add_le_add_left (finCount_le flags) 65535)
    settled

theorem AlwaysBounds.inStep (ids : IdInvariant k i mem) (step : InStep terms mem mem')
    (bounded : AlwaysBounds i mem) : AlwaysBounds i mem' :=
  (step.slot i).flowing ids.stage (fun _ => Nat.le_refl _) bounded

theorem Memory.SendBounds.withOutFlags (paced : mem.SendBounds i most) (value : BitVec 8) :
    (mem.withOutFlags i value).SendBounds i most := by
  rw [Memory.SendBounds, Memory.withOutFlags_slots]
  exact paced

/-- The released bit makes no difference. -/
theorem IdleBounds.congr (settled : IdleBounds i mem) (rx : mem'.rx = mem.rx)
    (sndNxt : (mem'.tx.slots i).sndNxt = (mem.tx.slots i).sndNxt)
    (fin : hasFinSent (mem'.tx.slots i).outFlags = hasFinSent (mem.tx.slots i).outFlags) :
    IdleBounds i mem' := by
  intro accepted
  simp only [Memory.view, rx] at accepted ⊢
  rw [sndNxt, finCount, fin]
  exact settled accepted

theorem IdleBounds.withReleased (settled : IdleBounds conn.slot mem) :
    IdleBounds conn.slot (mem.withReleased conn
      ((mem.tx.slots conn.slot).outFlags ||| outReleased)) := by
  refine settled.congr rfl ?_ ?_
  · rw [Memory.withReleased_slots]
  · rw [Memory.withReleased_slots]
    exact hasFinSent_or_released _

theorem IdleBounds.frame {slot : Nat} (settled : IdleBounds i mem)
    (frame : CallFrame slot mem mem') (other : slot ≠ i) : IdleBounds i mem' := by
  have sameOut := frame.slots i (Ne.symm other)
  exact settled.congr frame.rx (by rw [sameOut]) (by rw [sameOut])

theorem AlwaysBounds.frame {slot : Nat} (bounded : AlwaysBounds i mem)
    (frame : CallFrame slot mem mem') (other : slot ≠ i) : AlwaysBounds i mem' := by
  intro accepted
  simp only [Memory.view, frame.rx, frame.slots i (Ne.symm other)] at accepted ⊢
  exact bounded accepted

theorem HeldAs.continues (owns : HeldAs mem conn) (ids : IdInvariant k conn.slot mem)
    (guarded : terms.guarded conn.slot) (step : InStep terms mem mem') :
    (mem.view conn.slot).Continues terms (mem'.view conn.slot) :=
  (step.slot conn.slot).continues ids.stage guarded owns.held

theorem Memory.SendBounds.continues (paced : mem.SendBounds i most) (small : most ≤ 65536)
    (continues : (mem.view i).Continues terms (mem'.view i)) : mem'.SendBounds i most := by
  have sameOut : mem'.tx.slots i = mem.tx.slots i := continues.out
  rw [Memory.SendBounds, sameOut]
  exact paced.acks small continues.acks

/-- The inbound thread's steps, during `send`. -/
theorem SendingBounds.continues {base : BitVec 32} {limit published : Nat}
    (pacing : SendingBounds i base limit published mem)
    (continues : (mem.view i).Continues terms (mem'.view i)) :
    SendingBounds i base limit published mem' := by
  have sameOut : mem'.tx.slots i = mem.tx.slots i := continues.out
  have small := pacing.small
  have within := pacing.within
  refine ⟨small, within, ?_, pacing.paced.continues (by omega) continues⟩
  rw [sameOut]
  exact pacing.sndNxt

end SendBounds

end DpdkWrapper.Tcp
