import DpdkWrapper.Mbufs.Ownership

/-!
# What each operation changes

Operations change the variables they are applied to and no others.  This is what lets two
threads with variables of their own share a pool and a device.
-/

namespace DpdkWrapper.Mbufs

open Unique

namespace Heap

/-- A variable is the same in both memories. -/
structure Alike (name : Name) (heap heap' : Heap) : Prop where
  count : heap'.count name = heap.count name
  cell : ∀ i, heap'.cell (name, i) = heap.cell (name, i)

/-- All variables but some are the same. -/
def Touches (names : List Name) (heap heap' : Heap) : Prop :=
  ∀ name ∉ names, Alike name heap heap'

theorem Alike.refl (name : Name) (heap : Heap) : Alike name heap heap :=
  ⟨rfl, fun _ => rfl⟩

theorem Alike.trans {name : Name} {first second third : Heap} (left : Alike name first second)
    (right : Alike name second third) : Alike name first third :=
  ⟨right.count.trans left.count, fun i => (right.cell i).trans (left.cell i)⟩

section Effects

variable (heap : Heap) {name : Name}

/-- A change of some words, all of them in certain variables. -/
theorem touches_change {names : List Name} {action : Handles Address Mbuf → Handles Address Mbuf}
    (same : ∀ address : Address, address.1 ∉ names →
      (action heap.handles).cell address = heap.handles.cell address) :
    Touches names heap (heap.change action) :=
  fun other outside => ⟨rfl, fun i => same (other, i) outside⟩

theorem touches_resize (count : Nat) : Touches [name] heap (heap.resize name count) := by
  intro other outside
  rw [List.mem_singleton] at outside
  exact ⟨by rw [count_resize, Function.update_of_ne outside], fun _ => rfl⟩

theorem Touches.trans {names : List Name} {first second third : Heap}
    (left : Touches names first second) (right : Touches names second third) :
    Touches names first third :=
  fun other outside => (left other outside).trans (right other outside)

theorem Touches.mono {names others : List Name} {first second : Heap}
    (touches : Touches names first second) (more : names ⊆ others) :
    Touches others first second :=
  fun other outside => touches other fun member => outside (more member)

theorem ne_of_outside {names : List Name} {address : Address} (outside : address.1 ∉ names)
    (target : Address) (inside : target.1 ∈ names) : address ≠ target := by
  rintro rfl
  exact outside inside

theorem touches_put (address : Address) (value : Option Mbuf) :
    Touches [address.1] heap (heap.change (·.put address value)) := by
  refine heap.touches_change fun other outside => ?_
  rw [Handles.cell_put, Function.update_of_ne (ne_of_outside outside address List.mem_cons_self)]

theorem count_get (choice : Option Mbuf) :
    (heap.get name choice).count = Function.update heap.count name 1 := by
  have same : (heap.pktmbufAlloc choice).2.count = heap.count := by
    unfold pktmbufAlloc
    split
    · split <;> rfl
    · rfl
  rw [get, count_resize, count_change, same]

theorem touches_get (choice : Option Mbuf) : Touches [name] heap (heap.get name choice) := by
  have allocated : Touches [name] heap (heap.pktmbufAlloc choice).2 := by
    unfold pktmbufAlloc
    intro other _
    split
    · split
      · exact .refl other heap
      · exact ⟨rfl, fun _ => rfl⟩
    · exact .refl other heap
  exact (allocated.trans (touches_put _ (name, 0) _)).trans (touches_resize _ 1)

theorem touches_moveConstruct (source : Address) :
    Touches [name, source.1] heap (heap.moveConstruct name source) := by
  have moved : Touches [name, source.1] heap (heap.change (·.moveConstruct (name, 0) source)) := by
    refine heap.touches_change fun other outside => ?_
    have first := ne_of_outside outside (name, 0) List.mem_cons_self
    have second := ne_of_outside outside source
      (List.mem_cons_of_mem _ List.mem_cons_self)
    rw [Handles.cell_moveConstruct, Function.update_of_ne second, Function.update_of_ne first]
  exact moved.trans ((touches_resize _ 1).mono (by simp))

theorem touches_moveAssign (target source : Address) :
    Touches [target.1, source.1] heap (heap.moveAssign target source) := by
  refine heap.touches_change fun other outside => ?_
  have first := ne_of_outside outside target List.mem_cons_self
  have second := ne_of_outside outside source
    (List.mem_cons_of_mem _ List.mem_cons_self)
  rw [Handles.cell_moveAssign]
  split
  · rfl
  · rw [Function.update_of_ne second, Function.update_of_ne first]

/-- Where the pointer of another variable ends up. -/
theorem cell_moveAssign_target {target source : Address} (different : target.1 ≠ source.1)
    (i : Nat) : (heap.moveAssign target source).cell (target.1, i) =
      if i = target.2 then heap.cell source else heap.cell (target.1, i) := by
  have unlike : target ≠ source := by
    rintro rfl
    exact different rfl
  have apart : (target.1, i) ≠ source := by
    rintro rfl
    exact different rfl
  rw [moveAssign, cell_change, Handles.cell_moveAssign, if_neg unlike, Function.update_of_ne apart]
  by_cases same : i = target.2
  · rw [if_pos same, same]
    exact Function.update_self _ _ _
  · rw [if_neg same]
    refine Function.update_of_ne ?_ _ _
    intro equal
    exact same (congrArg Prod.snd equal)

theorem touches_clear (address : Address) : Touches [address.1] heap (heap.clear address) := by
  refine heap.touches_change fun other outside => ?_
  rw [Handles.cell_destroy, Function.update_of_ne
    (ne_of_outside outside address List.mem_cons_self)]

theorem cell_clear_same (name : Name) (i j : Nat) :
    (heap.clear (name, i)).cell (name, j) = if j = i then none else heap.cell (name, j) := by
  rw [clear, cell_change, Handles.cell_destroy]
  by_cases same : j = i
  · rw [if_pos same, same, Function.update_self]
  · rw [if_neg same]
    refine Function.update_of_ne ?_ _ _
    intro equal
    exact same (congrArg Prod.snd equal)

theorem touches_destroy (name : Name) : Touches [name] heap (heap.destroy name) := by
  intro other outside
  rw [List.mem_singleton] at outside
  refine ⟨by rw [count_destroy, Function.update_of_ne outside], fun i => ?_⟩
  rw [destroy, cell_resize, cell_clearAll]
  exact if_neg fun both => outside both.1

theorem touches_pushBack (value : Option Mbuf) :
    Touches [name] heap (heap.pushBack name value) := by
  unfold pushBack
  split
  · exact (heap.touches_put (name, heap.count name) value).trans (touches_resize _ _)
  · exact fun other _ => ⟨rfl, fun _ => rfl⟩

/-- Steps that touch the same variables, in a loop. -/
theorem touches_foldl {ι : Type} {names : List Name} {body : Heap → ι → Heap}
    (each : ∀ heap i, Touches names heap (body heap i)) (entries : List ι) (heap : Heap) :
    Touches names heap (entries.foldl body heap) := by
  induction entries generalizing heap with
  | nil => exact fun other _ => .refl other heap
  | cons i rest ih => exact (each heap i).trans (ih (body heap i))

theorem touches_receiveBurst (maxCount : Nat) (offered : List Mbuf) :
    Touches [name] heap (heap.receiveBurst name maxCount offered) := by
  have accepts : ∀ (heap : Heap) mbuf, Touches [name] heap (heap.accept mbuf) :=
    fun _ _ _ _ => ⟨rfl, fun _ => rfl⟩
  have pushes : ∀ (heap : Heap) mbuf, Touches [name] heap (heap.pushBack name (some mbuf)) :=
    fun heap mbuf => heap.touches_pushBack (some mbuf)
  exact (touches_foldl accepts _ heap).trans (touches_foldl pushes _ _)

theorem touches_complete (mbuf : Mbuf) : Touches [] heap (heap.complete mbuf) :=
  fun _ _ => ⟨rfl, fun _ => rfl⟩

theorem touches_refill (mbuf : Mbuf) : Touches [] heap (heap.refill mbuf) := by
  unfold refill
  intro other _
  split
  · exact .refl other heap
  · exact ⟨rfl, fun _ => rfl⟩

/-- What is left in the packets after a burst. -/
theorem cell_releaseAll (span : List Address) (heap : Heap) (address : Address) :
    (span.foldl (fun heap address => heap.change (·.put address none)) heap).cell address =
      if address ∈ span then none else heap.cell address := by
  induction span generalizing heap with
  | nil => simp
  | cons other rest ih =>
      rw [List.foldl_cons, ih, cell_change, Handles.cell_put]
      by_cases same : address = other
      · rw [same, Function.update_self]
        simp
      · rw [Function.update_of_ne same]
        simp [same, cell]

theorem cell_handAll (span : List Address) (heap : Heap) (address : Address) :
    (span.foldl (fun heap address => heap.hand address) heap).cell address =
      heap.cell address := by
  induction span generalizing heap with
  | nil => rfl
  | cons other rest ih => rw [List.foldl_cons, ih, cell_hand]

theorem mem_take_spanOf {offset size sent : Nat} {address : Address} :
    address ∈ (spanOf name offset size).take sent ↔
      address.1 = name ∧ ∃ i < min sent (size % 65536), address.2 = offset + i := by
  rw [spanOf, ← List.map_take, List.take_range, List.mem_map]
  constructor
  · rintro ⟨i, member, rfl⟩
    exact ⟨rfl, i, List.mem_range.mp member, rfl⟩
  · rintro ⟨rfl, i, inside, place⟩
    exact ⟨i, List.mem_range.mpr inside, Prod.ext rfl place.symm⟩

end Effects

/-- `send_burst` of packets that all hold an mbuf empties a first part of them and leaves the
others as they are. -/
structure Sends (name : Name) (offset size : Nat) (heap : Heap) (result : Nat × Heap) : Prop where
  sent : result.1 ≤ size
  count : result.2.count = heap.count
  gone : ∀ i < result.1, result.2.cell (name, offset + i) = none
  kept : ∀ address : Address, (address.1 = name → address.2 < offset ∨
    offset + result.1 ≤ address.2) →
    result.2.cell address = heap.cell address

theorem Sends.touches {name : Name} {offset size : Nat} {heap : Heap} {result : Nat × Heap}
    (sends : Sends name offset size heap result) : Touches [name] heap result.2 := by
  intro other outside
  rw [List.mem_singleton] at outside
  exact ⟨congrFun sends.count other, fun i => sends.kept (other, i) fun same => absurd same outside⟩

theorem sends_sendBurst {name : Name} {offset size : Nat} {heap : Heap} (room : Nat)
    (full : ∀ address ∈ spanOf name offset size, heap.cell address ≠ none) :
    Sends name offset size heap (heap.sendBurst name offset size room) := by
  have total : (spanOf name offset size).length = size % 65536 := by
    rw [spanOf, List.length_map, List.length_range]
  rw [sendBurst_of_full room full]
  constructor
  case sent =>
    refine Nat.le_trans (Nat.min_le_right _ _) ?_
    rw [total]
    exact Nat.mod_le _ _
  case count =>
    refine (count_foldl ?_ _ _).trans (count_foldl ?_ _ _)
    · exact fun _ _ => rfl
    · intro heap address
      unfold hand
      split <;> rfl
  case gone =>
    intro i inside
    rw [cell_releaseAll]
    refine if_pos (mem_take_spanOf.mpr ⟨rfl, i, ?_, rfl⟩)
    rw [total] at inside ⊢
    exact Nat.lt_min.mpr ⟨inside, Nat.lt_of_lt_of_le inside (Nat.min_le_right _ _)⟩
  case kept =>
    intro address outside
    rw [cell_releaseAll, cell_handAll]
    refine if_neg fun member => ?_
    rcases mem_take_spanOf.mp member with ⟨here, i, inside, place⟩
    rcases outside here with before | behind
    · omega
    · rw [place] at behind
      exact absurd (Nat.lt_of_lt_of_le inside (Nat.min_le_left _ _))
        (Nat.not_lt.mpr (Nat.le_of_add_le_add_left behind))

end Heap

end DpdkWrapper.Mbufs
