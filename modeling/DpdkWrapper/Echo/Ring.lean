import DpdkWrapper.Serial.Basic
import Mathlib.Data.Int.ModEq
import Mathlib.Data.List.Infix
import Mathlib.Logic.Function.Basic
import Mathlib.Logic.Relation

/-!
# A ring between two threads

`spsc_ring` has one producer, which alone moves `head_`, and one consumer, which alone moves
`tail_`.  Both are free-running 64-bit counters; the slots are found by their low bits.  Every
history of pushes and pops, however often the counters go round, is that of a bounded queue.
-/

namespace DpdkWrapper.Echo

/-- `spsc_ring` with a capacity of `2 ^ bits`, and the items that have been committed and
popped so far. -/
structure SpscRing (T : Type) (bits : Nat) where
  head : BitVec 64
  tail : BitVec 64
  items : Nat → T
  pushed : List T
  popped : List T

namespace SpscRing

variable {T : Type} {bits : Nat}

/-- The ring before its first use; what is in the slots does not matter. -/
def initial (items : Nat → T) : SpscRing T bits :=
  ⟨0, 0, items, [], []⟩

/-- The slot of a counter, `counter & (Capacity - 1)`. -/
def slot (bits : Nat) (counter : BitVec 64) : Nat :=
  (counter &&& (BitVec.ofNat 64 (2 ^ bits) - 1)).toNat

/-- The test of `reserve`: `head - tail == Capacity`. -/
def isFull (bits : Nat) (head tail : BitVec 64) : Bool :=
  head - tail == BitVec.ofNat 64 (2 ^ bits)

/-- A store to part of an item. -/
def store (ring : SpscRing T bits) (index : Nat) (change : T → T) : SpscRing T bits :=
  { ring with items := Function.update ring.items index (change (ring.items index)) }

/-- The store of `commit`, where `head` has been loaded before. -/
def commit (ring : SpscRing T bits) (head : BitVec 64) : SpscRing T bits :=
  { ring with
    head := head + 1
    pushed := ring.pushed ++ [ring.items (slot bits head)] }

/-- The store of `pop`, where `tail` has been loaded before. -/
def pop (ring : SpscRing T bits) (tail : BitVec 64) : SpscRing T bits :=
  { ring with
    tail := tail + 1
    popped := ring.popped ++ [ring.items (slot bits tail)] }

@[simp]
theorem pushed_commit (ring : SpscRing T bits) (head : BitVec 64) :
    (ring.commit head).pushed = ring.pushed ++ [ring.items (slot bits head)] :=
  rfl

@[simp]
theorem popped_commit (ring : SpscRing T bits) (head : BitVec 64) :
    (ring.commit head).popped = ring.popped :=
  rfl

@[simp]
theorem popped_pop (ring : SpscRing T bits) (tail : BitVec 64) :
    (ring.pop tail).popped = ring.popped ++ [ring.items (slot bits tail)] :=
  rfl

@[simp]
theorem pushed_pop (ring : SpscRing T bits) (tail : BitVec 64) :
    (ring.pop tail).pushed = ring.pushed :=
  rfl

theorem items_store_of_ne (ring : SpscRing T bits) {index other : Nat} (change : T → T)
    (different : other ≠ index) : (ring.store index change).items other = ring.items other :=
  Function.update_of_ne different _ _

theorem items_store_self (ring : SpscRing T bits) (index : Nat) (change : T → T) :
    (ring.store index change).items index = change (ring.items index) :=
  Function.update_self _ _ _

/-! ## Counters -/

theorem slot_ofNat (narrow : bits < 64) (count : Nat) :
    slot bits (BitVec.ofNat 64 count) = count % 2 ^ bits := by
  have small : 2 ^ bits < 2 ^ 64 := Nat.pow_lt_pow_right (by decide) narrow
  have positive := Nat.two_pow_pos bits
  have mask : (BitVec.ofNat 64 (2 ^ bits) - 1).toNat = 2 ^ bits - 1 := by
    rw [BitVec.toNat_sub, BitVec.toNat_ofNat, Nat.mod_eq_of_lt small]
    simp only [BitVec.ofNat_eq_ofNat, BitVec.toNat_ofNat]
    omega
  rw [slot, BitVec.toNat_and, mask, Nat.and_two_pow_sub_one_eq_mod, BitVec.toNat_ofNat]
  exact Nat.mod_mod_of_dvd count (Nat.pow_dvd_pow 2 (Nat.le_of_lt narrow))

/-- Counters less than a capacity apart have different slots. -/
theorem mod_ne_of_lt {first second capacity : Nat} (before : first < second)
    (close : second < first + capacity) : first % capacity ≠ second % capacity := by
  intro same
  have divides : capacity ∣ second - first :=
    (Nat.modEq_iff_dvd' (Nat.le_of_lt before)).mp same
  exact absurd (Nat.le_of_dvd (by omega) divides) (by omega)

/-! ## The queue in the ring -/

/-- The ring holds the items that have been pushed and not popped, in order. -/
structure Represents (ring : SpscRing T bits) : Prop where
  head : ring.head = BitVec.ofNat 64 ring.pushed.length
  tail : ring.tail = BitVec.ofNat 64 ring.popped.length
  order : ring.popped <+: ring.pushed
  room : ring.pushed.length ≤ ring.popped.length + 2 ^ bits
  items : ∀ position, ring.popped.length ≤ position → position < ring.pushed.length →
    ring.pushed[position]? = some (ring.items (position % 2 ^ bits))

theorem represents_initial (items : Nat → T) : (initial items : SpscRing T bits).Represents where
  head := rfl
  tail := rfl
  order := List.nil_prefix
  room := Nat.zero_le _
  items := fun _ _ inside => absurd inside (Nat.not_lt_zero _)

/-- There is a slot for another item. -/
def HasRoom (ring : SpscRing T bits) : Prop :=
  ring.pushed.length < ring.popped.length + 2 ^ bits

/-- There is an item to pop. -/
def HasItem (ring : SpscRing T bits) : Prop :=
  ring.popped.length < ring.pushed.length

variable {ring : SpscRing T bits}

section

variable (represents : ring.Represents) (narrow : bits < 64)
include represents narrow

/-- The difference of the counters is the number of items, although they wrap. -/
theorem Represents.dist :
    Serial.dist ring.tail ring.head = ring.pushed.length - ring.popped.length := by
  have small : 2 ^ bits < 2 ^ 64 := Nat.pow_lt_pow_right (by decide) narrow
  have bound := represents.room
  have counts := Serial.dist_offsets (0 : BitVec 64) represents.order.length_le (by omega)
  rwa [BitVec.ofNat_eq_ofNat, BitVec.zero_add, BitVec.zero_add, ← represents.tail,
    ← represents.head] at counts

theorem Represents.isFull_iff : isFull bits ring.head ring.tail = true ↔ ¬ring.HasRoom := by
  have small : 2 ^ bits < 2 ^ 64 := Nat.pow_lt_pow_right (by decide) narrow
  have counts := represents.dist narrow
  have bound := represents.room
  have positive := Nat.two_pow_pos bits
  rw [isFull, beq_iff_eq, HasRoom, ← BitVec.toNat_inj, BitVec.toNat_ofNat, Nat.mod_eq_of_lt small]
  rw [Serial.dist] at counts
  rw [counts]
  omega

theorem Represents.isEmpty_iff : ring.tail = ring.head ↔ ¬ring.HasItem := by
  have counts := represents.dist narrow
  have order := represents.order.length_le
  rw [← Serial.dist_eq_zero_iff, counts, HasItem]
  omega

/-- The oldest item is in the slot of `tail`. -/
theorem Represents.front (item : ring.HasItem) :
    ring.pushed[ring.popped.length]? = some (ring.items (slot bits ring.tail)) := by
  rw [represents.tail, slot_ofNat narrow]
  exact represents.items _ (Nat.le_refl _) item

end

/-! ## Steps -/

/-- A store to the slot of `head` touches no item of the queue. -/
theorem Represents.store (represents : ring.Represents) (narrow : bits < 64)
    (room : ring.HasRoom) (change : T → T) :
    (ring.store (slot bits ring.head) change).Represents where
  head := represents.head
  tail := represents.tail
  order := represents.order
  room := represents.room
  items := by
    intro position popped pushed
    have other : position % 2 ^ bits ≠ slot bits ring.head := by
      rw [represents.head, slot_ofNat narrow]
      have bound : ring.pushed.length < ring.popped.length + 2 ^ bits := room
      exact mod_ne_of_lt pushed (Nat.lt_of_lt_of_le bound (Nat.add_le_add_right popped _))
    rw [items_store_of_ne ring change other]
    exact represents.items position popped pushed

theorem Represents.commit (represents : ring.Represents) (narrow : bits < 64)
    (room : ring.HasRoom) : (ring.commit ring.head).Represents where
  head := by
    rw [pushed_commit, List.length_append, List.length_singleton, BitVec.ofNat_add,
      ← represents.head]
    rfl
  tail := represents.tail
  order := represents.order.trans (List.prefix_append _ _)
  room := by
    rw [pushed_commit, popped_commit, List.length_append, List.length_singleton]
    exact room
  items := by
    intro position popped pushed
    rw [pushed_commit, List.length_append, List.length_singleton] at pushed
    rw [pushed_commit]
    rcases Nat.lt_succ_iff_lt_or_eq.mp pushed with before | rfl
    · rw [List.getElem?_append_left before]
      exact represents.items position popped before
    · rw [List.getElem?_concat_length, represents.head, slot_ofNat narrow]
      rfl

theorem Represents.pop (represents : ring.Represents) (narrow : bits < 64)
    (item : ring.HasItem) : (ring.pop ring.tail).Represents where
  head := represents.head
  tail := by
    rw [popped_pop, List.length_append, List.length_singleton, BitVec.ofNat_add,
      ← represents.tail]
    rfl
  order := by
    have front := represents.front narrow item
    rw [popped_pop, pushed_pop, List.prefix_iff_eq_take, List.length_append,
      List.length_singleton, List.take_add_one, front,
      ← List.prefix_iff_eq_take.mp represents.order]
    rfl
  room := by
    rw [pushed_pop, popped_pop, List.length_append]
    have bound := represents.room
    omega
  items := by
    intro position popped pushed
    rw [popped_pop, List.length_append] at popped
    exact represents.items position (by omega) pushed

/-! ## What each side can rely on -/

/-- A step of the producer. -/
inductive Produces (ring : SpscRing T bits) : SpscRing T bits → Prop
  | idle : Produces ring ring
  | store (room : ring.HasRoom) (change : T → T) :
      Produces ring (ring.store (slot bits ring.head) change)
  | commit (room : ring.HasRoom) : Produces ring (ring.commit ring.head)

/-- A step of the consumer. -/
inductive Consumes (ring : SpscRing T bits) : SpscRing T bits → Prop
  | idle : Consumes ring ring
  | pop (item : ring.HasItem) : Consumes ring (ring.pop ring.tail)

variable {after : SpscRing T bits}

theorem Represents.produces (represents : ring.Represents) (narrow : bits < 64)
    (step : ring.Produces after) : after.Represents := by
  cases step with
  | idle => exact represents
  | store room change => exact represents.store narrow room change
  | commit room => exact represents.commit narrow room

theorem Represents.consumes (represents : ring.Represents) (narrow : bits < 64)
    (step : ring.Consumes after) : after.Represents := by
  cases step with
  | idle => exact represents
  | pop item => exact represents.pop narrow item

/-- While the consumer makes steps, what the producer has prepared stays, and so does the
room it has found. -/
theorem Consumes.spares (step : ring.Consumes after) :
    after.head = ring.head ∧ after.items = ring.items ∧ after.pushed = ring.pushed ∧
      (ring.HasRoom → after.HasRoom) := by
  cases step with
  | idle => exact ⟨rfl, rfl, rfl, id⟩
  | pop item =>
      refine ⟨rfl, rfl, rfl, fun room => ?_⟩
      have bound : ring.pushed.length < ring.popped.length + 2 ^ bits := room
      rw [HasRoom, pushed_pop, popped_pop, List.length_append]
      omega

/-- While the producer makes steps, the item that the consumer looks at stays. -/
theorem Produces.spares (step : ring.Produces after) (represents : ring.Represents)
    (narrow : bits < 64) (item : ring.HasItem) :
    after.tail = ring.tail ∧ after.popped = ring.popped ∧ after.HasItem ∧
      after.items (slot bits ring.tail) = ring.items (slot bits ring.tail) := by
  cases step with
  | idle => exact ⟨rfl, rfl, item, rfl⟩
  | store room change =>
      refine ⟨rfl, rfl, item, ?_⟩
      have other : slot bits ring.tail ≠ slot bits ring.head := by
        rw [represents.tail, represents.head, slot_ofNat narrow, slot_ofNat narrow]
        exact mod_ne_of_lt item room
      exact items_store_of_ne ring change other
  | commit room =>
      refine ⟨rfl, rfl, ?_, rfl⟩
      rw [HasItem, pushed_commit, popped_commit, List.length_append]
      exact Nat.lt_of_lt_of_le item (Nat.le_add_right _ _)

/-! ## Any number of steps -/

/-- What the producer may do while the consumer is between two steps of its own. -/
abbrev ProducesAll : SpscRing T bits → SpscRing T bits → Prop :=
  Relation.ReflTransGen Produces

abbrev ConsumesAll : SpscRing T bits → SpscRing T bits → Prop :=
  Relation.ReflTransGen Consumes

theorem Represents.producesAll (represents : ring.Represents) (narrow : bits < 64)
    (steps : ProducesAll ring after) : after.Represents := by
  induction steps with
  | refl => exact represents
  | tail _ step ih => exact ih.produces narrow step

theorem Represents.consumesAll (represents : ring.Represents) (narrow : bits < 64)
    (steps : ConsumesAll ring after) : after.Represents := by
  induction steps with
  | refl => exact represents
  | tail _ step ih => exact ih.consumes narrow step

theorem spares_consumesAll (steps : ConsumesAll ring after) :
    after.head = ring.head ∧ after.items = ring.items ∧ after.pushed = ring.pushed ∧
      (ring.HasRoom → after.HasRoom) := by
  induction steps with
  | refl => exact ⟨rfl, rfl, rfl, id⟩
  | tail _ step ih =>
      rcases ih with ⟨head, items, pushed, room⟩
      rcases step.spares with ⟨head', items', pushed', room'⟩
      exact ⟨head'.trans head, items'.trans items, pushed'.trans pushed, room' ∘ room⟩

theorem Represents.spares_producesAll (represents : ring.Represents) (narrow : bits < 64)
    (item : ring.HasItem) (steps : ProducesAll ring after) :
    after.tail = ring.tail ∧ after.popped = ring.popped ∧ after.HasItem ∧
      after.items (slot bits ring.tail) = ring.items (slot bits ring.tail) := by
  induction steps with
  | refl => exact ⟨rfl, rfl, item, rfl⟩
  | tail before step ih =>
      rcases ih with ⟨tail, popped, still, same⟩
      rcases step.spares (represents.producesAll narrow before) narrow still with
        ⟨tail', popped', still', same'⟩
      rw [tail] at same'
      exact ⟨tail'.trans tail, popped'.trans popped, still', same'.trans same⟩

theorem spares_producesAll (steps : ProducesAll ring after) :
    after.tail = ring.tail ∧ after.popped = ring.popped ∧ ring.pushed <+: after.pushed := by
  induction steps with
  | refl => exact ⟨rfl, rfl, List.prefix_refl _⟩
  | tail _ step ih =>
      rcases ih with ⟨tail, popped, grows⟩
      cases step with
      | idle => exact ⟨tail, popped, grows⟩
      | store room change => exact ⟨tail, popped, grows⟩
      | commit room => exact ⟨tail, popped, grows.trans (List.prefix_append _ _)⟩

end SpscRing

end DpdkWrapper.Echo
