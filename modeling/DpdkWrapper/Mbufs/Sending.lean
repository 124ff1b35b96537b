import DpdkWrapper.Mbufs.Polling

/-!
# The packets of the outbound thread

`send` fills the array `segs` from the front and stops at the first empty packet, so what it
hands to the queue is full.  What the queue does not take is destroyed with the array.
-/

namespace DpdkWrapper.Mbufs

open Threads
open Heap

/-- The outbound thread's side of the agreement. -/
def sending : Protocol Buffers where
  rely := ByInbound
  assume _ _ := True
  guarantee := ByOutbound
  rely_refl := .refl
  rely_trans _ _ _ := .trans
  guarantee_refl := .refl

/-- The variables of the outbound thread, with so many packets alive in each; the first
`filled` segments are full. -/
structure OutboundVars (inSegs inFin inBuilt filled : Nat) (buffers : Buffers) : Prop where
  sound : buffers.heap.Sound []
  segs : buffers.heap.count segs = inSegs
  fin : buffers.heap.count fin = inFin
  built : buffers.heap.count built = inBuilt
  full : ∀ i < filled, buffers.heap.cell (Mbufs.segs, i) ≠ none

section OutboundVars

variable {inSegs inFin inBuilt filled inSegs' inFin' inBuilt' : Nat} {buffers later : Buffers}

theorem OutboundVars.stable (moves : ByInbound buffers later)
    (vars : OutboundVars inSegs inFin inBuilt filled buffers) :
    OutboundVars inSegs inFin inBuilt filled later where
  sound := moves.sound vars.sound
  segs := (moves.alike Mbufs.segs (by decide)).count.trans vars.segs
  fin := (moves.alike Mbufs.fin (by decide)).count.trans vars.fin
  built := (moves.alike Mbufs.built (by decide)).count.trans vars.built
  full i inside := by
    rw [(moves.alike Mbufs.segs (by decide)).cell i]
    exact vars.full i inside

/-- An operation on variables of the outbound thread. -/
theorem byOutbound_of_touches {heap : Heap} {names : List Name} (sound : heap.Sound [])
    (touches : Touches names buffers.heap heap) (own : names ⊆ outboundNames) :
    ByOutbound buffers { buffers with heap } where
  sound _ := sound
  alike name outside := touches name fun inside => outside (own inside)
  nControl := rfl
  dropped := rfl
  offered := rfl
  sent := rfl

/-- How many packets are alive in the variables. -/
structure Counts (inSegs inFin inBuilt : Nat) (heap : Heap) : Prop where
  segs : heap.count segs = inSegs
  fin : heap.count fin = inFin
  built : heap.count built = inBuilt

/-- An operation as part of a program.  The segments before `filled'` stay full. -/
theorem OutboundVars.act {action : Heap → Heap} {names : List Name} {filled' : Nat}
    (vars : OutboundVars inSegs inFin inBuilt filled buffers)
    (sound : ∀ heap : Heap, heap.Sound [] → Counts inSegs inFin inBuilt heap →
      (action heap).Sound [])
    (touches : ∀ heap : Heap, Touches names heap (action heap)) (own : names ⊆ outboundNames)
    (counts : ∀ heap : Heap, Counts inSegs inFin inBuilt heap →
      Counts inSegs' inFin' inBuilt' (action heap))
    (full : ∀ heap : Heap, ∀ i < filled', (∀ i < filled, heap.cell (Mbufs.segs, i) ≠ none) →
      (action heap).cell (Mbufs.segs, i) ≠ none) :
    (Mbufs.act action).Meets sending
    (fun _ => OutboundVars inSegs' inFin' inBuilt' filled') buffers := by
  refine Program.meets_modify_of (fun _ _ => OutboundVars.stable)
    (fun _ _ => OutboundVars.stable) ?_ vars
  intro buffers vars
  have before : Counts inSegs inFin inBuilt buffers.heap := ⟨vars.segs, vars.fin, vars.built⟩
  have kept := sound buffers.heap vars.sound before
  have counted := counts buffers.heap before
  refine ⟨byOutbound_of_touches kept (touches buffers.heap) own, ?_⟩
  exact ⟨kept, counted.segs, counted.fin, counted.built, fun i inside =>
    full buffers.heap i inside vars.full⟩

/-- An operation that leaves `segs` alone. -/
theorem OutboundVars.actAside {action : Heap → Heap} {names : List Name}
    (vars : OutboundVars inSegs inFin inBuilt filled buffers)
    (sound : ∀ heap : Heap, heap.Sound [] → Counts inSegs inFin inBuilt heap →
      (action heap).Sound [])
    (touches : ∀ heap : Heap, Touches names heap (action heap)) (own : names ⊆ outboundNames)
    (counts : ∀ heap : Heap, Counts inSegs inFin inBuilt heap →
      Counts inSegs' inFin' inBuilt' (action heap)) (aside : Mbufs.segs ∉ names) :
    (Mbufs.act action).Meets sending
    (fun _ => OutboundVars inSegs' inFin' inBuilt' filled) buffers := by
  refine vars.act sound touches own counts ?_
  intro heap i inside full
  rw [(touches heap Mbufs.segs aside).cell i]
  exact full i inside

/-! ## Building -/

theorem OutboundVars.getBuilt (vars : OutboundVars inSegs inFin 0 filled buffers)
    (choice : Option Mbuf) :
    (Mbufs.act (·.get Mbufs.built choice)).Meets sending
      (fun _ => OutboundVars inSegs inFin 1 filled) buffers := by
  refine vars.actAside (fun heap sound counts => sound.get counts.built choice)
    (fun heap => heap.touches_get choice) (by decide) ?_ (by decide)
  intro heap counts
  constructor
  case segs => rw [count_get, Function.update_of_ne (by decide), counts.segs]
  case fin => rw [count_get, Function.update_of_ne (by decide), counts.fin]
  case built => rw [count_get, Function.update_self]

theorem OutboundVars.clearBuilt (vars : OutboundVars inSegs inFin inBuilt filled buffers) :
    (Mbufs.act (·.clear (Mbufs.built, 0))).Meets sending
      (fun _ => OutboundVars inSegs inFin inBuilt filled) buffers :=
  vars.actAside (fun _ sound _ => sound.clear _) (fun heap => heap.touches_clear _) (by decide)
    (fun _ counts => ⟨counts.segs, counts.fin, counts.built⟩) (by decide)

theorem OutboundVars.destroyBuilt (vars : OutboundVars inSegs inFin inBuilt filled buffers) :
    (Mbufs.act (·.destroy Mbufs.built)).Meets sending
      (fun _ => OutboundVars inSegs inFin 0 filled) buffers := by
  refine vars.actAside (fun _ sound _ => sound.destroy _) (fun heap => heap.touches_destroy _)
    (by decide) ?_ (by decide)
  intro heap counts
  constructor
  case segs => rw [count_destroy, Function.update_of_ne (by decide), counts.segs]
  case fin => rw [count_destroy, Function.update_of_ne (by decide), counts.fin]
  case built => rw [count_destroy, Function.update_self]

theorem OutboundVars.build (vars : OutboundVars inSegs inFin 0 filled buffers) (env : BuildEnv) :
    (Mbufs.build Mbufs.built env).Meets sending (fun _ => OutboundVars inSegs inFin 1 filled)
      buffers := by
  refine (vars.getBuilt env.choice).andThen fun _ later got => ?_
  unfold Program.when
  split
  · exact got.clearBuilt
  · exact Program.meets_done fun final moves => got.stable moves

theorem OutboundVars.moveSegment (vars : OutboundVars inSegs inFin inBuilt filled buffers)
    (room : filled < inSegs) :
    (Mbufs.act (·.moveAssign (Mbufs.segs, filled) (Mbufs.built, 0))).Meets sending
      (fun _ => OutboundVars inSegs inFin inBuilt filled) buffers := by
  have touches : ∀ heap : Heap, Touches [Mbufs.segs, Mbufs.built] heap
      (heap.moveAssign (Mbufs.segs, filled) (Mbufs.built, 0)) := fun heap =>
    heap.touches_moveAssign (Mbufs.segs, filled) (Mbufs.built, 0)
  refine vars.act ?_ touches (by decide)
    (fun _ counts => ⟨counts.segs, counts.fin, counts.built⟩) ?_
  · intro heap sound counts
    refine sound.moveAssign ?_
    rw [Live, counts.segs]
    exact room
  · intro heap i inside full
    have moved : (heap.moveAssign (Mbufs.segs, filled) (Mbufs.built, 0)).cell (Mbufs.segs, i) =
        if i = filled then heap.cell (Mbufs.built, 0) else heap.cell (Mbufs.segs, i) :=
      heap.cell_moveAssign_target (show Mbufs.segs ≠ Mbufs.built by decide) i
    rw [moved, if_neg (Nat.ne_of_lt inside)]
    exact full i inside

theorem OutboundVars.moveFin (vars : OutboundVars inSegs 1 inBuilt filled buffers) :
    (Mbufs.act (·.moveAssign (Mbufs.fin, 0) (Mbufs.built, 0))).Meets sending
      (fun _ => OutboundVars inSegs 1 inBuilt filled) buffers := by
  refine vars.actAside ?_ (fun heap => heap.touches_moveAssign _ _) (by decide)
    (fun _ counts => ⟨counts.segs, counts.fin, counts.built⟩) (by decide)
  intro heap sound counts
  refine sound.moveAssign ?_
  rw [Live, counts.fin]
  exact Nat.one_pos

/-- The next segment, full or empty. -/
theorem OutboundVars.assignSegment (vars : OutboundVars inSegs inFin 0 filled buffers)
    (room : filled < inSegs)
    (env : BuildEnv) :
    (assignBuilt (Mbufs.segs, filled) env).Meets sending
      (fun _ => OutboundVars inSegs inFin 0 filled) buffers := by
  refine (vars.build env).andThen fun _ _ built => ?_
  exact (built.moveSegment room).andThen fun _ _ there => there.destroyBuilt

/-- The FIN, full or empty. -/
theorem OutboundVars.assignFin (vars : OutboundVars inSegs 1 0 filled buffers) (env : BuildEnv) :
    (assignBuilt (Mbufs.fin, 0) env).Meets sending
    (fun _ => OutboundVars inSegs 1 0 filled) buffers := by
  refine (vars.build env).andThen fun _ _ built => ?_
  exact built.moveFin.andThen fun _ _ there => there.destroyBuilt

/-! ## Sending -/

/-- A burst of full packets. -/
theorem OutboundVars.sendFrom {name : Name} {count : Nat}
    (vars : OutboundVars inSegs inFin inBuilt filled buffers)
    (own : name ∈ outboundNames)
    (full : ∀ i < count, buffers.heap.cell (name, i) ≠ none) (room : Nat) :
    ByOutbound buffers (Mbufs.sendFrom name count room buffers).2 ∧
      OutboundVars inSegs inFin inBuilt 0 (Mbufs.sendFrom name count room buffers).2 := by
  have span : ∀ address ∈ spanOf name 0 count, buffers.heap.cell address ≠ none := by
    intro address member
    rcases List.mem_map.mp member with ⟨i, inside, rfl⟩
    rw [Nat.zero_add]
    exact full i (Nat.lt_of_lt_of_le (List.mem_range.mp inside) (Nat.mod_le _ _))
  have sound := vars.sound.sendBurst room span
  have sends := sends_sendBurst room span
  refine ⟨byOutbound_of_touches sound sends.touches ?_, ?_⟩
  · exact List.cons_subset.mpr ⟨own, List.nil_subset _⟩
  · exact ⟨sound, (congrFun sends.count _).trans vars.segs,
      (congrFun sends.count _).trans vars.fin, (congrFun sends.count _).trans vars.built,
      fun i impossible => absurd impossible (Nat.not_lt_zero i)⟩

theorem OutboundVars.declareSegs (vars : OutboundVars 0 inFin inBuilt 0 buffers) :
    (Mbufs.act (·.declare Mbufs.segs maxSize)).Meets sending
      (fun _ => OutboundVars maxSize inFin inBuilt 0) buffers := by
  refine vars.act (fun heap sound counts => sound.declare counts.segs maxSize)
    (fun heap => heap.touches_resize maxSize) (by decide) ?_
    fun _ i impossible => absurd impossible (Nat.not_lt_zero i)
  intro heap counts
  constructor
  case segs => rw [Heap.declare, count_resize, Function.update_self]
  case fin => rw [Heap.declare, count_resize, Function.update_of_ne (by decide), counts.fin]
  case built => rw [Heap.declare, count_resize, Function.update_of_ne (by decide), counts.built]

theorem OutboundVars.destroySegs (vars : OutboundVars inSegs inFin inBuilt filled buffers) :
    (Mbufs.act (·.destroy Mbufs.segs)).Meets sending
      (fun _ => OutboundVars 0 inFin inBuilt 0) buffers := by
  refine vars.act (fun _ sound _ => sound.destroy _) (fun heap => heap.touches_destroy _)
    (by decide) ?_ fun _ i impossible => absurd impossible (Nat.not_lt_zero i)
  intro heap counts
  constructor
  case segs => rw [count_destroy, Function.update_self]
  case fin => rw [count_destroy, Function.update_of_ne (by decide), counts.fin]
  case built => rw [count_destroy, Function.update_of_ne (by decide), counts.built]

/-- The inner loop leaves as many full segments as it says. -/
theorem OutboundVars.fillSegs {limit mss : Nat} {env : Nat → BuildEnv} {room : Nat} (off : Nat)
    (ends : List Nat) (vars : OutboundVars maxSize inFin 0 filled buffers)
    (total : filled + room = maxSize) :
    (Mbufs.fillSegs limit mss env room filled off ends).Meets sending
      (fun result => OutboundVars maxSize inFin 0 result.1) buffers := by
  induction room generalizing filled off ends buffers with
  | zero => exact Program.meets_done fun final moves => vars.stable moves
  | succ room ih =>
      unfold Mbufs.fillSegs
      split
      · have fits : filled < maxSize := by omega
        refine (vars.assignSegment fits (env filled)).andThen fun _ _ assigned => ?_
        refine Program.meets_read_bind fun later moves => ?_
        have assigned := assigned.stable moves
        split
        · exact Program.meets_done fun final moves => assigned.stable moves
        · rename_i full
          refine ih _ _ ⟨assigned.sound, assigned.segs, assigned.fin, assigned.built, ?_⟩ (by omega)
          intro i inside
          rcases Nat.lt_succ_iff_lt_or_eq.mp inside with before | rfl
          · exact assigned.full i before
          · exact fun null => full (beq_iff_eq.mpr null)
      · exact Program.meets_done fun final moves => vars.stable moves

theorem OutboundVars.sendLoop {limit mss : Nat} {env : SendEnv} (fuel number done : Nat)
    (vars : OutboundVars 0 inFin 0 0 buffers) :
    (Mbufs.sendLoop limit mss env fuel number done).Meets sending
      (fun _ => OutboundVars 0 inFin 0 0) buffers := by
  induction fuel generalizing number done buffers with
  | zero => exact Program.meets_done fun final moves => vars.stable moves
  | succ fuel ih =>
      unfold Mbufs.sendLoop
      split
      · refine vars.declareSegs.andThen fun _ _ declared => ?_
        refine (declared.fillSegs done [] (Nat.zero_add _)).andThen fun result _ built => ?_
        split
        · refine built.destroySegs.andThen fun _ _ cleared => ?_
          exact Program.meets_done fun final moves => cleared.stable moves
        · refine Program.meets_atomically_bind fun later moves _ => ?_
          have built := built.stable moves
          obtain ⟨kept, sent⟩ := built.sendFrom (by decide) built.full (env.room number)
          refine ⟨kept, sent.destroySegs.andThen fun _ _ cleared => ?_⟩
          split
          · exact Program.meets_done fun final moves => cleared.stable moves
          · split
            · exact Program.meets_done fun final moves => cleared.stable moves
            · exact ih _ _ cleared
      · exact Program.meets_done fun final moves => vars.stable moves

/-! ## Closing -/

theorem OutboundVars.declareFin (vars : OutboundVars inSegs 0 inBuilt filled buffers) :
    (Mbufs.act (·.declare Mbufs.fin 1)).Meets sending
      (fun _ => OutboundVars inSegs 1 inBuilt filled) buffers := by
  refine vars.actAside (fun heap sound counts => sound.declare counts.fin 1)
    (fun heap => heap.touches_resize 1) (by decide) ?_ (by decide)
  intro heap counts
  constructor
  case segs => rw [Heap.declare, count_resize, Function.update_of_ne (by decide), counts.segs]
  case fin => rw [Heap.declare, count_resize, Function.update_self]
  case built => rw [Heap.declare, count_resize, Function.update_of_ne (by decide), counts.built]

theorem OutboundVars.destroyFin (vars : OutboundVars inSegs inFin inBuilt filled buffers) :
    (Mbufs.act (·.destroy Mbufs.fin)).Meets sending
      (fun _ => OutboundVars inSegs 0 inBuilt filled) buffers := by
  refine vars.actAside (fun _ sound _ => sound.destroy _) (fun heap => heap.touches_destroy _)
    (by decide) ?_ (by decide)
  intro heap counts
  constructor
  case segs => rw [count_destroy, Function.update_of_ne (by decide), counts.segs]
  case fin => rw [count_destroy, Function.update_self]
  case built => rw [count_destroy, Function.update_of_ne (by decide), counts.built]

/-- The FIN stays in `fin` until the queue takes it. -/
theorem OutboundVars.finLoop {env : CloseEnv} (retries attempt : Nat)
    (vars : OutboundVars inSegs 1 0 0 buffers) :
    (Mbufs.finLoop env retries attempt).Meets sending
    (fun _ => OutboundVars inSegs 1 0 0) buffers := by
  induction retries generalizing attempt buffers with
  | zero => exact Program.meets_done fun final moves => vars.stable moves
  | succ retries ih =>
      refine Program.meets_read_bind fun later moves => ?_
      have vars := vars.stable moves
      have prepared : (Program.when (later.isNull (Mbufs.fin, 0))
          (assignBuilt (Mbufs.fin, 0) (env.build attempt))).Meets sending
            (fun _ => OutboundVars inSegs 1 0 0) later := by
        unfold Program.when
        split
        · exact vars.assignFin _
        · exact Program.meets_done fun final moves => vars.stable moves
      refine prepared.andThen fun _ _ there => ?_
      refine Program.meets_read_bind fun later moves => ?_
      have there := there.stable moves
      split
      · exact ih _ there
      · rename_i full
        refine Program.meets_atomically_bind fun final moves _ => ?_
        have still : ∀ i < 1, final.heap.cell (Mbufs.fin, i) ≠ none := by
          intro i first
          rw [Nat.lt_one_iff.mp first, (moves.alike Mbufs.fin (by decide)).cell 0]
          exact fun null => full (beq_iff_eq.mpr null)
        obtain ⟨kept, sent⟩ := (there.stable moves).sendFrom (by decide) still (env.room attempt)
        refine ⟨kept, ?_⟩
        split
        · exact Program.meets_done fun last moves => sent.stable moves
        · exact ih _ sent

theorem OutboundVars.closeFin (vars : OutboundVars inSegs 0 0 0 buffers) (env : CloseEnv) :
    (Mbufs.closeFin env).Meets sending (fun _ => OutboundVars inSegs 0 0 0) buffers := by
  refine vars.declareFin.andThen fun _ _ declared => ?_
  exact (declared.finLoop _ _).andThen fun _ _ tried => tried.destroyFin

/-- The outbound thread keeps to its terms. -/
theorem outbound_keeps :
    outbound.Keeps (fun _ _ => True) (fun _ => sending) (fun _ => OutboundVars 0 0 0 0) where
  assumed _ _ _ _ := trivial
  starts _ _ _ _ vars starts := by
    rcases starts with ⟨limit, mss, env, fuel, rfl⟩ | ⟨env, rfl⟩
    · refine (vars.sendLoop fuel 0 0).andThen fun _ _ sent => ?_
      exact Program.meets_done fun final moves => sent.stable moves
    · exact vars.closeFin env

end OutboundVars

end DpdkWrapper.Mbufs
