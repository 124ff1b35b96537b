import DpdkWrapper.Mbufs.Effects

/-!
# Moved bursts

A move takes the packets of a burst one by one and leaves its `count_` as it was.  What is
left behind has its old size and holds nothing.
-/

namespace DpdkWrapper.Mbufs

open Unique

namespace Heap

/-- After `n` rounds of the loop of a move. -/
structure MovedUpTo (before : Heap) (target source : Name) (n : Nat) (heap : Heap) : Prop where
  count : heap.count = Function.update before.count target n
  taken : ∀ i, heap.cell (target, i) = if i < n then before.cell (source, i) else none
  left : ∀ i, heap.cell (source, i) = if i < n then none else before.cell (source, i)

section Moves

variable {before heap : Heap} {target source : Name} {n : Nat}

theorem cell_pushBackFrom (room : heap.count target < maxSize) (i : Nat) :
    (heap.pushBackFrom target source i).cell =
      Function.update (Function.update heap.cell (target, heap.count target)
        (heap.cell (source, i))) (source, i) none := by
  rw [pushBackFrom, pushBack_of_lt room]
  rfl

theorem MovedUpTo.next (moved : MovedUpTo before target source n heap)
    (different : source ≠ target) (room : n < maxSize) :
    MovedUpTo before target source (n + 1) (heap.pushBackFrom target source n) := by
  have here : heap.count target = n := by rw [moved.count, Function.update_self]
  have fits : heap.count target < maxSize := here ▸ room
  constructor
  case count => rw [count_pushBackFrom fits, here, moved.count, Function.update_idem]
  case taken =>
    intro i
    have apart : (target, i) ≠ (source, n) := fun same => different (congrArg Prod.fst same).symm
    rw [cell_pushBackFrom fits, Function.update_of_ne apart, here]
    by_cases last : i = n
    · rw [last, Function.update_self, moved.left, if_neg (Nat.lt_irrefl n),
        if_pos (Nat.lt_succ_self n)]
    · have other : (target, i) ≠ (target, n) := fun same => last (congrArg Prod.snd same)
      have bounds : i < n + 1 ↔ i < n := by omega
      rw [Function.update_of_ne other, moved.taken]
      simp only [bounds]
  case left =>
    intro i
    rw [cell_pushBackFrom fits]
    by_cases last : i = n
    · rw [last, Function.update_self, if_pos (Nat.lt_succ_self n)]
    · have other : (source, i) ≠ (source, n) := fun same => last (congrArg Prod.snd same)
      have apart : (source, i) ≠ (target, heap.count target) := fun same =>
        different (congrArg Prod.fst same)
      have bounds : i < n + 1 ↔ i < n := by omega
      rw [Function.update_of_ne other, Function.update_of_ne apart, moved.left]
      simp only [bounds]

/-- The loop of a move, as far as it has got. -/
theorem movedUpTo_foldl (unused : before.count target = 0)
    (vacant : ∀ i, before.cell (target, i) = none) (different : source ≠ target)
    (small : n ≤ maxSize) :
    MovedUpTo before target source n
      ((List.range n).foldl (fun heap i => heap.pushBackFrom target source i) before) := by
  induction n with
  | zero =>
      refine ⟨?_, fun i => ?_, fun i => ?_⟩
      · exact (Function.update_eq_self_iff.mpr unused.symm).symm
      · rw [if_neg (Nat.not_lt_zero i)]
        exact vacant i
      · rw [if_neg (Nat.not_lt_zero i)]
        rfl
  | succ n ih =>
      rw [List.range_succ, List.foldl_append]
      exact (ih (Nat.le_of_succ_le small)).next different small

/-! ## Sending nulls -/

theorem faults_inspect_of_ne_nil (address : Address) (failed : heap.faults ≠ []) :
    (heap.inspect address).faults ≠ [] := by
  unfold inspect
  split
  · exact List.cons_ne_nil _ _
  · exact failed

theorem faults_foldl {ι : Type} {body : Heap → ι → Heap}
    (keeps : ∀ heap i, heap.faults ≠ [] → (body heap i).faults ≠ []) (entries : List ι)
    (failed : heap.faults ≠ []) : (entries.foldl body heap).faults ≠ [] := by
  induction entries generalizing heap with
  | nil => exact failed
  | cons i rest ih => exact ih (keeps heap i failed)

theorem cell_inspect (address : Address) : (heap.inspect address).cell = heap.cell := by
  unfold inspect
  split <;> rfl

/-- The driver comes across a null. -/
theorem faults_foldl_inspect {span : List Address} {address : Address} (member : address ∈ span)
    (null : heap.cell address = none) :
    (span.foldl (fun heap address => heap.inspect address) heap).faults ≠ [] := by
  induction span generalizing heap with
  | nil => cases member
  | cons other rest ih =>
      rcases List.mem_cons.mp member with rfl | later
      · have failed : (heap.inspect address).faults ≠ [] := by
          unfold inspect
          rw [if_pos null]
          exact List.cons_ne_nil _ _
        exact faults_foldl (fun _ other => faults_inspect_of_ne_nil other) rest failed
      · refine ih later ?_
        rw [cell_inspect]
        exact null

theorem faults_hand (address : Address) : (heap.hand address).faults = heap.faults := by
  unfold hand
  split <;> rfl

/-- An empty packet in a span is a null for the driver. -/
theorem faults_sendBurst_of_null {name : Name} {offset size : Nat} {address : Address}
    (member : address ∈ spanOf name offset size) (null : heap.cell address = none) (room : Nat) :
    (heap.sendBurst name offset size room).2.faults ≠ [] := by
  refine faults_foldl ?_ _ (faults_foldl ?_ _ (faults_foldl_inspect member null))
  · exact fun _ _ failed => failed
  · intro heap address failed
    rw [faults_hand]
    exact failed

end Moves

end Heap

open Heap

/-- A burst that has been moved from still has its old size, all its packets are empty, and
handing it to a queue passes null to the driver; the packets themselves are in the new burst,
in their order. -/
theorem moved_burst_is_left_with_nulls {heap : Heap} (run : heap.Reachable) {target source : Nat}
    (different : source ≠ target) (unused : heap.count (.burst target) = 0)
    (some : 0 < heap.count (.burst source)) (room : Nat) :
    (heap.moveBurst (.burst target) (.burst source)).count =
        Function.update heap.count (.burst target) (heap.count (.burst source)) ∧
      (∀ i, (heap.moveBurst (.burst target) (.burst source)).cell (.burst target, i) =
        heap.cell (.burst source, i)) ∧
      (∀ i, (heap.moveBurst (.burst target) (.burst source)).cell (.burst source, i) = none) ∧
      ((heap.moveBurst (.burst target) (.burst source)).sendBurst (.burst source) 0
        (heap.count (.burst source)) room).2.faults ≠ [] := by
  have sound := run.sound
  have small := sound.bounded source
  have vacant : ∀ i, heap.cell (.burst target, i) = none := fun i =>
    sound.vacant _ i (unused ▸ Nat.zero_le i)
  have moved : MovedUpTo heap (.burst target) (.burst source) (heap.count (.burst source))
      (heap.moveBurst (.burst target) (.burst source)) :=
    movedUpTo_foldl unused vacant (fun same => different (Name.burst.inj same)) small
  have nulls : ∀ i, (heap.moveBurst (.burst target) (.burst source)).cell (.burst source, i) =
      none := by
    intro i
    rw [moved.left]
    split
    · rfl
    · rename_i beyond
      exact sound.vacant _ i (Nat.not_lt.mp beyond)
  refine ⟨moved.count, fun i => ?_, nulls, ?_⟩
  · rw [moved.taken]
    split
    · rfl
    · rename_i beyond
      exact (sound.vacant _ i (Nat.not_lt.mp beyond)).symm
  · have first : (Name.burst source, 0) ∈ spanOf (.burst source) 0
        (heap.count (.burst source)) := by
      refine List.mem_map.mpr ⟨0, List.mem_range.mpr ?_, rfl⟩
      have bound : heap.count (.burst source) < 65536 := Nat.lt_of_le_of_lt small (by decide)
      rw [Nat.mod_eq_of_lt bound]
      exact some
    exact faults_sendBurst_of_null first (nulls 0) room

theorem moved_burst_is_left_with_nulls_of_received :
    (received.moveBurst (.burst 1) (.burst 0)).count (.burst 0) = 2 ∧
      (received.moveBurst (.burst 1) (.burst 0)).cell (.burst 0, 1) = none := by
  have moved := moved_burst_is_left_with_nulls received_reachable (show 0 ≠ 1 by decide)
    (by decide) (by decide) 2
  exact ⟨by decide, moved.2.2.1 1⟩

end DpdkWrapper.Mbufs
