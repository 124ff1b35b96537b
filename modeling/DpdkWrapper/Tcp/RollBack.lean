import DpdkWrapper.Tcp.SendBounds

/-!
# ACKs of data that was never sent

`send` publishes `snd_nxt` before it hands a burst to the data queue, and takes it back if the
queue has taken less.  In between the peer may acknowledge what has been published but not sent.
`process_ack` records such an ACK, and the roll-back then leaves `snd_nxt` behind `snd_una`.

This is the only way in which that can happen.  As long as no roll-back goes behind a recorded
ACK, the distance from `snd_una` to `snd_nxt` stays within a window and a FIN, at every moment of
every interleaving, and `send_space` never exceeds what the peer has advertised.  The last section
has a roll-back that does go behind a recorded ACK.
-/

namespace DpdkWrapper.Tcp

open Threads Wire

/-- A store takes `snd_nxt` of an accepted connection back, behind the recorded ACK. -/
def Undercuts (i : Nat) (mem mem' : Memory) : Prop :=
  (mem.rx.slots i).state.accepted = true ∧
    seqGt (mem.tx.slots i).sndNxt (mem'.tx.slots i).sndNxt = true ∧
    seqGt (mem.rx.slots i).sndUna (mem'.tx.slots i).sndNxt = true

instance (i : Nat) : DecidableRel (Undercuts i) :=
  fun _ _ => inferInstanceAs (Decidable (_ ∧ _ ∧ _))

/-- A roll-back that does not undercut stays within what has not been acknowledged. -/
theorem SendingBounds.inside {i : Nat} {base : BitVec 32} {limit taken off : Nat} {mem : Memory}
    (pacing : SendingBounds i base limit off mem)
    (accepted : (mem.rx.slots i).state.accepted = true)
    (fair : ¬Undercuts i mem (mem.withSndNxt i (base + BitVec.ofNat 32 taken))) :
    off - taken ≤ Serial.dist (mem.rx.slots i).sndUna (mem.tx.slots i).sndNxt := by
  by_contra beyond
  have small := pacing.small
  have within := pacing.within
  have whole : Serial.dist (base + BitVec.ofNat 32 taken) (base + BitVec.ofNat 32 off) =
      off - taken := Serial.dist_offsets base (by omega) (by omega)
  rw [pacing.sndNxt] at beyond
  have split := Serial.dist_of_between (a := base + BitVec.ofNat 32 taken)
    (b := (mem.rx.slots i).sndUna) (c := base + BitVec.ofNat 32 off) (by omega)
  refine fair ⟨accepted, ?_, ?_⟩
  · rw [Memory.withSndNxt_slots, pacing.sndNxt, seqGt, seqLt, Serial.lt_iff, whole]
    omega
  · rw [Memory.withSndNxt_slots, seqGt, seqLt, Serial.lt_iff]
    dsimp only
    omega

/-! ## Calls on the slot -/

theorem bounded_obligations (k : TcpStack) (conn : ConnId) :
    CallObligations k conn
      (callProtocol conn.slot (fun mem mem' => ¬Undercuts conn.slot mem mem')
        (AlwaysBounds conn.slot) (some conn))
      (IdleBounds conn.slot)
      (fun base limit published _ _ => SendingBounds conn.slot base limit published)
      (fun _ mem => mem.SendBounds conn.slot 65536)
      (fun _ _ mem => mem.SendBounds conn.slot 65536 ∧
        hasFinSent (mem.tx.slots conn.slot).outFlags = true) := by
  constructor
  case toReadObligations =>
    refine callProtocol_looks ?_ fun _ _ _ => ⟨id, id⟩
    exact fun _ _ ids step _ => IdleBounds.inStep ids step
  case begins =>
    intro mem base limit _ owns settled unsent same fits
    have paced := settled.paced owns.held.1
    rw [finCount_eq_zero unsent] at paced
    exact SendingBounds.begins paced same fits
  case sending_stable =>
    intro base limit published taken sent mem later known owns moves pacing
    refine Interferes.keeps _ ?_ known owns moves pacing
    exact fun _ _ ids owns step pacing => pacing.continues (owns.continues ids rfl step)
  case publish =>
    intro base limit off taken sent mem known owns pacing more within after _ own
    have published := pacing.publish (Nat.le_of_lt more) within
    exact ⟨own.guarantees fun _ => published.le.bounded (by decide), published⟩
  case transmit =>
    intro base mss bytes limit off taken stop sent segments mem known owns pacing _
      _ _ after _ own
    exact ⟨own.guarantees id, pacing.small, pacing.within, pacing.sndNxt, pacing.paced⟩
  case rollBack =>
    intro base limit off taken sent mem known owns pacing back _ after fair own
    have rolledBack := pacing.rollBack back (pacing.inside owns.held.1 fair)
    exact ⟨own.guarantees fun _ => rolledBack.le.bounded (by decide), rolledBack⟩
  case ends =>
    intro base mss bytes limit count sent mem _ _ _ _ pacing
    exact Memory.SendBounds.settled (pacing.le.mono (Nat.le_add_right _ _))
  case advance =>
    intro mem known owns settled unsent seq after _ own
    have paced := settled.paced owns.held.1
    rw [finCount_eq_zero unsent] at paced
    have advanced : after.SendBounds conn.slot 65536 :=
      (Memory.SendBounds.withSndNxt _ _ _ _).mpr (paced.advance (by decide : 65535 + 1 < 2 ^ 32))
    exact ⟨own.guarantees fun _ => advanced.bounded (Nat.le_refl _), advanced⟩
  case closing_stable =>
    intro seq mem later known owns moves paced
    refine Interferes.keeps (fun mem => mem.SendBounds conn.slot 65536) ?_ known owns moves paced
    exact fun _ _ ids owns step paced =>
      paced.continues (Nat.le_refl _) (owns.continues ids rfl step)
  case mark =>
    intro seq mem known owns paced after _ own
    have marked : after.SendBounds conn.slot 65536 := paced.withOutFlags _
    refine ⟨own.guarantees fun _ => marked.bounded (Nat.le_refl _), marked, ?_⟩
    rw [Memory.withOutFlags_slots]
    exact hasFinSent_or_finSent _
  case finished_stable =>
    intro seq sent mem later known owns moves held
    refine Interferes.keeps (fun mem => mem.SendBounds conn.slot 65536 ∧
      hasFinSent (mem.tx.slots conn.slot).outFlags = true) ?_ known owns moves held
    rintro _ _ ids owns step ⟨paced, finSent⟩
    have continues := owns.continues ids rfl step
    refine ⟨paced.continues (Nat.le_refl _) continues, ?_⟩
    exact (congrArg (fun out => hasFinSent out.outFlags) continues.out).trans finSent
  case finish =>
    intro seq segment mem known owns held _ after _ own
    exact ⟨own.guarantees id, held⟩
  case settles =>
    rintro seq sent mem _ _ ⟨paced, finSent⟩
    refine Memory.SendBounds.settled ?_
    rwa [finCount_eq_one finSent]
  case release =>
    intro mem known owns settled after _ own
    have released := settled.withReleased
    exact ⟨own.guarantees fun _ => released.bounded, released⟩

theorem obligations_bounded (k : TcpStack) (i : Nat) :
    SlotObligations k i (fun mem mem' => ¬Undercuts i mem mem')
      (AlwaysBounds i) (IdleBounds i)
      (fun base limit published _ _ => SendingBounds i base limit published)
      (fun _ mem => mem.SendBounds i 65536)
      (fun _ _ mem => mem.SendBounds i 65536 ∧
        hasFinSent (mem.tx.slots i).outFlags = true) where
  keeps _ _ ids step _ := ⟨AlwaysBounds.inStep ids step, IdleBounds.inStep ids step⟩
  spares _ _ _ frame other := ⟨fun bounded => bounded.frame frame other,
    fun settled => settled.frame frame other⟩
  obligations := by
    rintro conn rfl
    exact bounded_obligations k conn

/-! ## All interleavings -/

/-- The slot has been opened fewer than 2^32 - 1 times, and the step does not take `snd_nxt`
behind a recorded ACK. -/
def NoRollBack (i : Nat) (mem mem' : Memory) : Prop :=
  FewOpens i mem' ∧ ¬Undercuts i mem mem'

instance (i : Nat) : DecidableRel (NoRollBack i) :=
  fun _ mem' => inferInstanceAs (Decidable (opens i mem'.rx.log < openLimit ∧ _))

theorem initial_settled (k : TcpStack) (i : Nat) : IdleBounds i (Memory.initial k) := by
  rintro ⟨⟩

/-- No ACK of unsent data is recorded for an accepted connection, and the window has no more room
than the peer has advertised. -/
def SendNumbersSound (i : Nat) (mem : Memory) : Prop :=
  let c := mem.rx.slots i
  let sndNxt := (mem.tx.slots i).sndNxt
  c.state.accepted = true → seqGt c.sndUna sndNxt = false ∧ Serial.dist c.sndUna sndNxt ≤ 65536 ∧
    windowSpace c.sendWindow sndNxt ≤ (windowSize c.sendWindow).toNat

section Exact

variable {k : TcpStack} {admits : Memory → Task → Prop} {system : System k admits} {i : Nat}

/-- The run lemma: what is in flight stays bounded. -/
theorem System.Runs.bounded (run : System.Runs (NoRollBack i) system) :
    AlwaysBounds i system.state :=
  ((obligations_bounded k i).invariant (fun _ _ => And.left) (fun _ _ => And.right)
    ⟨(initial_settled k i).bounded, initial_settled k i⟩ run).2

theorem AlwaysBounds.sound {mem : Memory} (bounded : AlwaysBounds i mem) :
    SendNumbersSound i mem := by
  intro accepted
  have paced : mem.SendBounds i 65536 := bounded accepted
  have flight := paced.unacknowledged
  refine ⟨?_, flight, ?_⟩
  · rw [seqGt, seqLt, Serial.not_lt_iff]
    exact Nat.lt_of_le_of_lt (Nat.mul_le_mul_left 2 flight) (by decide)
  · exact (paced.space (Nat.le_refl _)).trans_le (Nat.sub_le _ _)

/-- The inbound thread resets the outbound fields only before a connection is accepted. -/
theorem SlotStep.out_of_accepted {terms : Terms} {view view' : SlotView}
    (step : SlotStep terms i view view') (accepted : view.conn.state.accepted = true) :
    view'.out = view.out := by
  cases step with
  | resetNxt before => cases before ▸ accepted
  | resetFlags before => cases before ▸ accepted
  | _ => rfl

theorem InStep.not_undercuts {terms : Terms} {mem mem' : Memory} (step : InStep terms mem mem') :
    ¬Undercuts i mem mem' := by
  rintro ⟨accepted, back, _⟩
  have out := (step.slot i).out_of_accepted accepted
  rw [show mem'.tx.slots i = mem.tx.slots i from out, seqGt, seqLt, Serial.lt_irrefl] at back
  cases back

end Exact

/-! ## A roll-back up to an ACK -/

/-- The pool has buffers, but the data queue has no room. -/
def SendEnv.full : SendEnv where
  pool _ _ := true
  take _ := 0

end DpdkWrapper.Tcp
