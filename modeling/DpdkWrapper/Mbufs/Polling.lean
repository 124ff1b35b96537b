import DpdkWrapper.Mbufs.Effects
import DpdkWrapper.Mbufs.Stack

/-!
# The packets of the inbound thread

Between the calls of `queue_control` the first `n_control` packets of the array `control` are
full and the others empty.  This is why a flush sends no null, and why no mbuf is left behind
after it.
-/

namespace DpdkWrapper.Mbufs

open Threads
open Heap

/-- The variables of the inbound thread. -/
def inboundNames : List Name := [control, pkt, answer, burst]

/-- The variables of the outbound thread. -/
def outboundNames : List Name := [segs, fin, built]

/-- A step of the inbound thread. -/
structure ByInbound (buffers later : Buffers) : Prop where
  sound : buffers.heap.Sound [] → later.heap.Sound []
  alike : ∀ name ∉ inboundNames, Alike name buffers.heap later.heap

/-- A step of the outbound thread. -/
structure ByOutbound (buffers later : Buffers) : Prop where
  sound : buffers.heap.Sound [] → later.heap.Sound []
  alike : ∀ name ∉ outboundNames, Alike name buffers.heap later.heap
  nControl : later.nControl = buffers.nControl
  dropped : later.dropped = buffers.dropped
  offered : later.offered = buffers.offered
  sent : later.sent = buffers.sent

theorem ByInbound.refl (buffers : Buffers) : ByInbound buffers buffers :=
  ⟨id, fun name _ => .refl name _⟩

theorem ByInbound.trans {first second third : Buffers} (left : ByInbound first second)
    (right : ByInbound second third) : ByInbound first third :=
  ⟨right.sound ∘ left.sound, fun name outside => (left.alike name outside).trans
    (right.alike name outside)⟩

theorem ByOutbound.refl (buffers : Buffers) : ByOutbound buffers buffers :=
  ⟨id, fun name _ => .refl name _, rfl, rfl, rfl, rfl⟩

theorem ByOutbound.trans {first second third : Buffers} (left : ByOutbound first second)
    (right : ByOutbound second third) : ByOutbound first third where
  sound := right.sound ∘ left.sound
  alike name outside := (left.alike name outside).trans (right.alike name outside)
  nControl := right.nControl.trans left.nControl
  dropped := right.dropped.trans left.dropped
  offered := right.offered.trans left.offered
  sent := right.sent.trans left.sent

namespace DriverMove

variable {buffers later : Buffers}

/-- What the driver does takes no packet from either thread. -/
theorem alike (move : DriverMove buffers later) (name : Name) :
    Alike name buffers.heap later.heap := by
  cases move with
  | complete mbuf => exact buffers.heap.touches_complete mbuf name List.not_mem_nil
  | refill mbuf => exact buffers.heap.touches_refill mbuf name List.not_mem_nil

theorem sound (move : DriverMove buffers later) (sound : buffers.heap.Sound []) :
    later.heap.Sound [] := by
  cases move with
  | complete mbuf => exact sound.complete mbuf
  | refill mbuf => exact sound.refill mbuf

/-- To the outbound thread the driver is like the inbound thread. -/
theorem byInbound (move : DriverMove buffers later) : ByInbound buffers later :=
  ⟨move.sound, fun name _ => move.alike name⟩

/-- To the inbound thread the driver is like the outbound thread. -/
theorem byOutbound (move : DriverMove buffers later) : ByOutbound buffers later := by
  refine ⟨move.sound, fun name _ => move.alike name, ?_, ?_, ?_, ?_⟩ <;> cases move <;> rfl

end DriverMove

/-- The inbound thread's side of the agreement. -/
def polling : Protocol Buffers where
  rely := ByOutbound
  assume _ _ := True
  guarantee := ByInbound
  rely_refl := .refl
  rely_trans _ _ _ := .trans
  guarantee_refl := .refl

/-! ## The control queue -/

/-- The variables of the inbound thread while it answers packets, with so many packets alive
in `pkt` and `answer`. -/
structure InboundVars (inPkt inAnswer : Nat) (buffers : Buffers) : Prop where
  sound : buffers.heap.Sound []
  pkt : buffers.heap.count pkt = inPkt
  answer : buffers.heap.count answer = inAnswer
  control : buffers.heap.count control = maxControl
  queue : ∀ i, buffers.heap.cell (Mbufs.control, i) ≠ none ↔ i < buffers.nControl
  small : buffers.nControl ≤ maxControl
  account : buffers.offered = buffers.sent + buffers.dropped + buffers.nControl

section InboundVars

variable {inPkt inAnswer inPkt' inAnswer' : Nat} {buffers later : Buffers}

theorem InboundVars.stable (moves : ByOutbound buffers later)
    (vars : InboundVars inPkt inAnswer buffers) :
    InboundVars inPkt inAnswer later where
  sound := moves.sound vars.sound
  pkt := (moves.alike Mbufs.pkt (by decide)).count.trans vars.pkt
  answer := (moves.alike Mbufs.answer (by decide)).count.trans vars.answer
  control := (moves.alike Mbufs.control (by decide)).count.trans vars.control
  queue i := by
    rw [(moves.alike Mbufs.control (by decide)).cell i, moves.nControl]
    exact vars.queue i
  small := by
    rw [moves.nControl]
    exact vars.small
  account := by
    rw [moves.offered, moves.sent, moves.dropped, moves.nControl]
    exact vars.account

/-- An operation that leaves `control` alone. -/
theorem InboundVars.onHeap (vars : InboundVars inPkt inAnswer buffers) {action : Heap → Heap}
    {names : List Name} (sound : (action buffers.heap).Sound [])
    (touches : Touches names buffers.heap (action buffers.heap)) (aside : Mbufs.control ∉ names)
    (inPkt : (action buffers.heap).count Mbufs.pkt = inPkt')
    (inAnswer : (action buffers.heap).count Mbufs.answer = inAnswer') :
    InboundVars inPkt' inAnswer' (buffers.onHeap action) where
  sound := sound
  pkt := inPkt
  answer := inAnswer
  control := (touches Mbufs.control aside).count.trans vars.control
  queue i := by
    rw [Buffers.onHeap, (touches Mbufs.control aside).cell i]
    exact vars.queue i
  small := vars.small
  account := vars.account

/-- An operation on variables of the inbound thread. -/
theorem byInbound_of_touches {names : List Name} (sound : later.heap.Sound [])
    (touches : Touches names buffers.heap later.heap) (own : names ⊆ inboundNames) :
    ByInbound buffers later :=
  ⟨fun _ => sound, fun name outside => touches name fun inside => outside (own inside)⟩

/-- An operation as part of a program. -/
theorem InboundVars.act {action : Heap → Heap} {names : List Name}
    (vars : InboundVars inPkt inAnswer buffers)
    (sound : ∀ heap : Heap, heap.Sound [] → heap.count Mbufs.pkt = inPkt →
      heap.count Mbufs.answer = inAnswer → (action heap).Sound [])
    (touches : ∀ heap : Heap, Touches names heap (action heap))
    (own : names ⊆ inboundNames) (aside : Mbufs.control ∉ names)
    (counts : ∀ heap : Heap, heap.count Mbufs.pkt = inPkt → heap.count Mbufs.answer = inAnswer →
      (action heap).count Mbufs.pkt = inPkt' ∧ (action heap).count Mbufs.answer = inAnswer') :
    (Mbufs.act action).Meets polling (fun _ => InboundVars inPkt' inAnswer') buffers := by
  refine Program.meets_modify_of (fun _ _ => InboundVars.stable)
    (fun _ _ => InboundVars.stable) ?_ vars
  intro buffers vars
  have kept := sound buffers.heap vars.sound vars.pkt vars.answer
  have counted := counts buffers.heap vars.pkt vars.answer
  exact ⟨byInbound_of_touches kept (touches buffers.heap) own,
    vars.onHeap kept (touches buffers.heap) aside counted.1 counted.2⟩

/-! ## Answering -/

theorem InboundVars.declareAnswer (vars : InboundVars inPkt 0 buffers) :
    (Mbufs.act (·.declare Mbufs.answer 1)).Meets polling
    (fun _ => InboundVars inPkt 1) buffers := by
  refine vars.act (fun heap sound _ unused => sound.declare unused 1)
    (fun heap => heap.touches_resize 1) (by decide) (by decide) ?_
  intro heap one _
  exact ⟨by rw [Heap.declare, count_resize, Function.update_of_ne (by decide), one],
    by rw [Heap.declare, count_resize, Function.update_self]⟩

theorem InboundVars.getPkt (vars : InboundVars 0 inAnswer buffers) (choice : Option Mbuf) :
    (Mbufs.act (·.get Mbufs.pkt choice)).Meets polling
    (fun _ => InboundVars 1 inAnswer) buffers := by
  refine vars.act (fun heap sound unused _ => sound.get unused choice)
    (fun heap => heap.touches_get choice) (by decide) (by decide) ?_
  intro heap _ answers
  exact ⟨by rw [count_get, Function.update_self],
    by rw [count_get, Function.update_of_ne (by decide), answers]⟩

theorem InboundVars.clearPkt (vars : InboundVars inPkt inAnswer buffers) :
    (Mbufs.act (·.clear (Mbufs.pkt, 0))).Meets polling
    (fun _ => InboundVars inPkt inAnswer) buffers :=
  vars.act (fun _ sound _ _ => sound.clear _) (fun heap => heap.touches_clear _) (by decide)
    (by decide) fun _ one two => ⟨one, two⟩

theorem InboundVars.destroyPkt (vars : InboundVars inPkt inAnswer buffers) :
    (Mbufs.act (·.destroy Mbufs.pkt)).Meets polling (fun _ => InboundVars 0 inAnswer) buffers := by
  refine vars.act (fun _ sound _ _ => sound.destroy _) (fun heap => heap.touches_destroy _)
    (by decide) (by decide) ?_
  intro heap _ answers
  exact ⟨by rw [count_destroy, Function.update_self],
    by rw [count_destroy, Function.update_of_ne (by decide), answers]⟩

theorem InboundVars.destroyAnswer (vars : InboundVars inPkt inAnswer buffers) :
    (Mbufs.act (·.destroy Mbufs.answer)).Meets polling (fun _ => InboundVars inPkt 0) buffers := by
  refine vars.act (fun _ sound _ _ => sound.destroy _) (fun heap => heap.touches_destroy _)
    (by decide) (by decide) ?_
  intro heap packets _
  exact ⟨by rw [count_destroy, Function.update_of_ne (by decide), packets],
    by rw [count_destroy, Function.update_self]⟩

theorem InboundVars.assignAnswer (vars : InboundVars inPkt 1 buffers) :
    (Mbufs.act (·.moveAssign (Mbufs.answer, 0) (Mbufs.pkt, 0))).Meets polling
      (fun _ => InboundVars inPkt 1) buffers := by
  refine vars.act ?_ (fun heap => heap.touches_moveAssign _ _) (by decide) (by decide)
    fun _ one two => ⟨one, two⟩
  intro heap sound _ one
  refine sound.moveAssign ?_
  rw [Live, one]
  exact Nat.one_pos

theorem InboundVars.movePkt (vars : InboundVars 0 1 buffers) :
    (Mbufs.act (·.moveConstruct Mbufs.pkt (Mbufs.answer, 0))).Meets polling
      (fun _ => InboundVars 1 1) buffers := by
  refine vars.act ?_ (fun heap => heap.touches_moveConstruct _) (by decide) (by decide) ?_
  · intro heap sound unused one
    refine sound.moveConstruct unused ?_
    rw [Live, one]
    exact Nat.one_pos
  · intro heap _ one
    exact ⟨by rw [Heap.moveConstruct, count_resize, Function.update_self],
      by rw [Heap.moveConstruct, count_resize, count_change,
        Function.update_of_ne (by decide), one]⟩

/-- `build_segment` returns a packet, which may be empty. -/
theorem InboundVars.build (vars : InboundVars 0 inAnswer buffers) (env : BuildEnv) :
    (Mbufs.build Mbufs.pkt env).Meets polling (fun _ => InboundVars 1 inAnswer) buffers := by
  refine (vars.getPkt env.choice).andThen fun _ later got => ?_
  unfold Program.when
  split
  · exact got.clearPkt
  · exact Program.meets_done fun final moves => got.stable moves

/-- A packet joins the queue, or is counted as dropped. -/
theorem InboundVars.enqueue (vars : InboundVars 1 inAnswer buffers) :
    ByInbound buffers (Mbufs.enqueue buffers) ∧ InboundVars 1 inAnswer (Mbufs.enqueue buffers) := by
  unfold Mbufs.enqueue
  split
  · refine ⟨⟨id, fun name _ => .refl name _⟩, ?_⟩
    have counted := vars.account
    exact ⟨vars.sound, vars.pkt, vars.answer, vars.control, vars.queue, vars.small, by
      change buffers.offered + 1 = buffers.sent + (buffers.dropped + 1) + buffers.nControl
      omega⟩
  · rename_i accepted
    rw [Bool.or_eq_true, not_or] at accepted
    have full : buffers.heap.cell (Mbufs.pkt, 0) ≠ none := fun null =>
      accepted.1 (beq_iff_eq.mpr null)
    have room : buffers.nControl < maxControl :=
      Nat.lt_of_le_of_ne vars.small fun same => accepted.2 (beq_iff_eq.mpr same)
    have live : buffers.heap.Live (Mbufs.control, buffers.nControl) := by
      rw [Live, vars.control]
      exact room
    have sound : (buffers.heap.moveAssign (Mbufs.control, buffers.nControl)
        (Mbufs.pkt, 0)).Sound [] := vars.sound.moveAssign live
    have touches : Touches [Mbufs.control, Mbufs.pkt] buffers.heap _ :=
      buffers.heap.touches_moveAssign (Mbufs.control, buffers.nControl) (Mbufs.pkt, 0)
    refine ⟨byInbound_of_touches sound touches (by decide), ?_⟩
    constructor
    case sound => exact sound
    case pkt => exact vars.pkt
    case answer => exact vars.answer
    case control => exact vars.control
    case queue =>
      intro i
      have moved : ((buffers.heap.moveAssign (Mbufs.control, buffers.nControl)
          (Mbufs.pkt, 0)).cell (Mbufs.control, i)) =
          if i = buffers.nControl then buffers.heap.cell (Mbufs.pkt, 0)
          else buffers.heap.cell (Mbufs.control, i) :=
        buffers.heap.cell_moveAssign_target (show Mbufs.control ≠ Mbufs.pkt by decide) i
      rw [moved, Nat.lt_succ_iff_lt_or_eq, ← vars.queue i]
      split
      · rename_i same
        exact ⟨fun _ => Or.inr same, fun _ => full⟩
      · rename_i other
        rw [or_iff_left other]
    case small => exact room
    case account =>
      have counted := vars.account
      change buffers.offered + 1 = buffers.sent + buffers.dropped + (buffers.nControl + 1)
      omega

theorem InboundVars.queueControl (vars : InboundVars 1 inAnswer buffers) :
    Mbufs.queueControl.Meets polling (fun _ => InboundVars 0 inAnswer) buffers := by
  have queued : (Program.modify Mbufs.enqueue).Meets polling
      (fun _ => InboundVars 1 inAnswer) buffers :=
    Program.meets_modify_of (fun _ _ => InboundVars.stable) (fun _ _ => InboundVars.stable)
      (fun _ => InboundVars.enqueue) vars
  exact queued.andThen fun _ later there => there.destroyPkt

theorem InboundVars.buildAnswer (vars : InboundVars 0 0 buffers) (env : BuildEnv) :
    (Mbufs.buildAnswer env).Meets polling (fun _ => InboundVars 0 1) buffers := by
  refine vars.declareAnswer.andThen fun _ _ declared => ?_
  refine (declared.build env).andThen fun _ _ built => ?_
  refine built.assignAnswer.andThen fun _ _ assigned => ?_
  exact assigned.destroyPkt

theorem InboundVars.queueAnswer (vars : InboundVars 0 1 buffers) :
    Mbufs.queueAnswer.Meets polling (fun _ => InboundVars 0 1) buffers :=
  vars.movePkt.andThen fun _ _ moved => moved.queueControl

theorem InboundVars.respond (vars : InboundVars 0 0 buffers) (reply : Reply) :
    (Mbufs.respond reply).Meets polling (fun _ => InboundVars 0 0) buffers := by
  cases reply with
  | segment env => exact (vars.build env).andThen fun _ _ built => built.queueControl
  | rst env =>
      refine (vars.buildAnswer env).andThen fun _ _ answered => ?_
      exact answered.queueAnswer.andThen fun _ _ queued => queued.destroyAnswer
  | arp env =>
      refine (vars.buildAnswer env).andThen fun _ _ answered => ?_
      refine Program.meets_read_bind fun later moves => ?_
      have answered := answered.stable moves
      have queued : (Program.when (!later.isNull (Mbufs.answer, 0)) Mbufs.queueAnswer).Meets
          polling (fun _ => InboundVars 0 1) later := by
        unfold Program.when
        split
        · exact answered.queueAnswer
        · exact Program.meets_done fun final moves => answered.stable moves
      exact queued.andThen fun _ _ done => done.destroyAnswer

/-- Any number of answers. -/
theorem InboundVars.forEach {ι : Type} (vars : InboundVars 0 0 buffers) (reply : ι → Reply)
    (entries : List ι) :
    (Program.forEach (fun entry => Mbufs.respond (reply entry)) entries).Meets polling
      (fun _ => InboundVars 0 0) buffers :=
  Program.meets_forEach_of vars (fun _ _ => InboundVars.stable) fun entry _ there =>
    there.respond (reply entry)

end InboundVars

/-! ## The flush -/

/-- During a flush: the packets of `control` that have not been sent are yet to be destroyed,
and `owed` of them to be counted. -/
structure Flushing (owed : Nat) (rest : List Nat) (buffers : Buffers) : Prop where
  sound : buffers.heap.Sound []
  pkt : buffers.heap.count pkt = 0
  answer : buffers.heap.count answer = 0
  control : buffers.heap.count control = maxControl
  left : ∀ i, buffers.heap.cell (Mbufs.control, i) ≠ none → i ∈ rest
  account : buffers.offered = buffers.sent + buffers.dropped + owed

section Flushing

variable {owed count : Nat} {rest : List Nat} {buffers later : Buffers}

theorem Flushing.stable (moves : ByOutbound buffers later) (flushing : Flushing owed rest buffers) :
    Flushing owed rest later where
  sound := moves.sound flushing.sound
  pkt := (moves.alike Mbufs.pkt (by decide)).count.trans flushing.pkt
  answer := (moves.alike Mbufs.answer (by decide)).count.trans flushing.answer
  control := (moves.alike Mbufs.control (by decide)).count.trans flushing.control
  left i full := by
    rw [(moves.alike Mbufs.control (by decide)).cell i] at full
    exact flushing.left i full
  account := by
    rw [moves.offered, moves.sent, moves.dropped]
    exact flushing.account

/-- One packet is destroyed. -/
theorem Flushing.clear {i : Nat} (flushing : Flushing owed (i :: rest) buffers) :
    (act (·.clear (Mbufs.control, i))).Meets polling (fun _ => Flushing owed rest) buffers := by
  refine Program.meets_modify_of (fun _ _ => Flushing.stable) (fun _ _ => Flushing.stable) ?_
    flushing
  intro buffers flushing
  have sound := flushing.sound.clear (Mbufs.control, i)
  have touches : Touches [Mbufs.control] buffers.heap _ :=
    buffers.heap.touches_clear (Mbufs.control, i)
  refine ⟨byInbound_of_touches sound touches (by decide), ?_⟩
  refine ⟨sound, flushing.pkt, flushing.answer, flushing.control, ?_, flushing.account⟩
  intro j full
  rw [Buffers.onHeap, cell_clear_same] at full
  split at full
  · exact absurd rfl full
  · rename_i other
    exact List.mem_of_ne_of_mem other (flushing.left j full)

theorem Flushing.forEach (flushing : Flushing owed rest buffers) :
    (Program.forEach (fun i => act (·.clear (Mbufs.control, i))) rest).Meets polling
      (fun _ => Flushing owed []) buffers :=
  Program.meets_forEach flushing (fun _ _ _ => Flushing.stable) fun _ _ _ there => there.clear

/-- The queue takes a first part of the packets. -/
theorem InboundVars.sendControl (vars : InboundVars 0 0 buffers) (same : buffers.nControl = count)
    (room : Nat) :
    ByInbound buffers (Mbufs.sendControl count room buffers).2 ∧
      Flushing (count - (Mbufs.sendControl count room buffers).1)
        (List.range' (Mbufs.sendControl count room buffers).1
          (count - (Mbufs.sendControl count room buffers).1))
        (Mbufs.sendControl count room buffers).2 := by
  have full : ∀ address ∈ spanOf Mbufs.control 0 count, buffers.heap.cell address ≠ none := by
    intro address member
    rcases List.mem_map.mp member with ⟨i, inside, rfl⟩
    rw [Nat.zero_add, vars.queue, same]
    exact Nat.lt_of_lt_of_le (List.mem_range.mp inside) (Nat.mod_le _ _)
  have sound := vars.sound.sendBurst room full
  have sends := sends_sendBurst room full
  have touches : Touches [Mbufs.control] buffers.heap
      (buffers.heap.sendBurst Mbufs.control 0 count room).2 := sends.touches
  refine ⟨byInbound_of_touches sound touches (by decide), ?_⟩
  constructor
  case sound => exact sound
  case pkt => exact (congrFun sends.count _).trans vars.pkt
  case answer => exact (congrFun sends.count _).trans vars.answer
  case control => exact (congrFun sends.count _).trans vars.control
  case left =>
    intro i left
    have behind : (buffers.heap.sendBurst Mbufs.control 0 count room).1 ≤ i := by
      by_contra before
      have gone := sends.gone i (Nat.not_le.mp before)
      rw [Nat.zero_add] at gone
      exact left gone
    have kept := sends.kept (Mbufs.control, i) fun _ => Or.inr (by rwa [Nat.zero_add])
    have queued : buffers.heap.cell (Mbufs.control, i) ≠ none := fun null => left (kept.trans null)
    rw [vars.queue, same] at queued
    rw [List.mem_range'_1]
    have sent := sends.sent
    exact ⟨behind, by omega⟩
  case account =>
    have counted := vars.account
    have sent := sends.sent
    change buffers.offered = buffers.sent + (buffers.heap.sendBurst Mbufs.control 0 count room).1 +
      buffers.dropped + (count - (buffers.heap.sendBurst Mbufs.control 0 count room).1)
    omega

/-- What was not sent is counted. -/
theorem Flushing.settle (flushing : Flushing owed rest buffers) :
    (Program.modify fun buffers : Buffers =>
      { buffers with dropped := buffers.dropped + owed }).Meets polling
        (fun _ => Flushing 0 rest) buffers := by
  refine Program.meets_modify_of (fun _ _ => Flushing.stable) (fun _ _ => Flushing.stable) ?_
    flushing
  intro buffers flushing
  refine ⟨⟨id, fun name _ => .refl name _⟩, ?_⟩
  exact ⟨flushing.sound, flushing.pkt, flushing.answer, flushing.control, flushing.left, by
    rw [flushing.account, Nat.add_assoc, Nat.add_zero]⟩

/-- The inbound thread between two rounds, apart from its burst: the queue is empty. -/
def Flushed (buffers : Buffers) : Prop :=
  InboundVars 0 0 buffers ∧ buffers.nControl = 0

theorem Flushed.stable (moves : ByOutbound buffers later) (flushed : Flushed buffers) :
    Flushed later :=
  ⟨flushed.1.stable moves, moves.nControl.trans flushed.2⟩

/-- Nothing is left in the queue. -/
theorem Flushing.finish (flushing : Flushing 0 [] buffers) :
    (Program.modify fun buffers : Buffers => { buffers with nControl := 0 }).Meets polling
      (fun _ => Flushed) buffers := by
  refine Program.meets_modify_of (fun _ _ => Flushing.stable) (fun _ _ => Flushed.stable) ?_
    flushing
  intro buffers flushing
  refine ⟨⟨id, fun name _ => .refl name _⟩, ?_, rfl⟩
  refine ⟨flushing.sound, flushing.pkt, flushing.answer, flushing.control, ?_, Nat.zero_le _,
    flushing.account⟩
  intro i
  constructor
  · exact fun full => absurd (flushing.left i full) List.not_mem_nil
  · exact fun impossible => absurd impossible (Nat.not_lt_zero i)

theorem InboundVars.flushControl (vars : InboundVars 0 0 buffers) (room : Nat) :
    (Mbufs.flushControl room).Meets polling (fun _ => Flushed) buffers := by
  refine Program.meets_read_bind fun later moves => ?_
  have vars := vars.stable moves
  split
  · rename_i empty
    exact Program.meets_done fun final moves => ⟨vars.stable moves, moves.nControl.trans empty⟩
  · refine Program.meets_atomically_bind fun final moves _ => ?_
    have sends := (vars.stable moves).sendControl moves.nControl room
    refine ⟨sends.1, ?_⟩
    refine sends.2.settle.andThen fun _ _ counted => ?_
    exact counted.forEach.andThen fun _ _ cleared => cleared.finish

end Flushing

/-! ## A round -/

/-- The inbound thread between two rounds: it has no packet. -/
structure Polled (buffers : Buffers) : Prop where
  flushed : Flushed buffers
  burst : buffers.heap.count burst = 0

section Polled

variable {buffers later : Buffers}

theorem Polled.stable (moves : ByOutbound buffers later) (polled : Polled buffers) : Polled later :=
  ⟨polled.flushed.stable moves, (moves.alike Mbufs.burst (by decide)).count.trans polled.burst⟩

theorem Polled.receive (polled : Polled buffers) (maxCount : Nat) (arriving : List Mbuf) :
    (act (·.receiveBurst Mbufs.burst maxCount arriving)).Meets polling (fun _ => InboundVars 0 0)
      buffers := by
  refine Program.meets_modify_of (fun _ _ => Polled.stable)
    (fun _ _ => InboundVars.stable) ?_ polled
  intro buffers polled
  have vars := polled.flushed.1
  have sound := vars.sound.receiveBurst polled.burst maxCount arriving
  have touches : Touches [Mbufs.burst] buffers.heap _ :=
    buffers.heap.touches_receiveBurst maxCount arriving
  refine ⟨byInbound_of_touches sound touches (by decide), ?_⟩
  exact vars.onHeap sound touches (by decide)
    ((touches Mbufs.pkt (by decide)).count.trans vars.pkt)
    ((touches Mbufs.answer (by decide)).count.trans vars.answer)

theorem Flushed.destroyBurst (flushed : Flushed buffers) :
    (act (·.destroy Mbufs.burst)).Meets polling (fun _ => Polled) buffers := by
  refine Program.meets_modify_of (fun _ _ => Flushed.stable) (fun _ _ => Polled.stable) ?_ flushed
  rintro buffers ⟨vars, empty⟩
  have sound := vars.sound.destroy Mbufs.burst
  have touches := buffers.heap.touches_destroy Mbufs.burst
  refine ⟨byInbound_of_touches sound touches (by decide), ⟨?_, empty⟩, ?_⟩
  · exact vars.onHeap sound touches (by decide)
      ((touches Mbufs.pkt (by decide)).count.trans vars.pkt)
      ((touches Mbufs.answer (by decide)).count.trans vars.answer)
  · rw [Buffers.onHeap, count_destroy, Function.update_self]

theorem Polled.round (polled : Polled buffers) (env : PollEnv) :
    (inboundRound env).Meets polling (fun _ => Polled) buffers := by
  refine (polled.receive env.maxCount env.arriving).andThen fun _ _ received => ?_
  refine (received.forEach id env.replies).andThen fun _ _ answered => ?_
  refine (answered.forEach Reply.segment env.acks).andThen fun _ _ acknowledged => ?_
  exact (acknowledged.flushControl env.room).andThen fun _ _ flushed => flushed.destroyBurst

/-- The inbound thread keeps to its terms. -/
theorem inbound_keeps :
    inbound.Keeps (fun _ _ => True) (fun _ => polling) (fun _ => Polled) where
  assumed _ _ _ _ := trivial
  starts _ _ _ _ polled starts := by
    rcases starts with ⟨env, rfl⟩
    exact polled.round env

end Polled

end DpdkWrapper.Mbufs
