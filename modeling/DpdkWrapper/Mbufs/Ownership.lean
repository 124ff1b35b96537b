import DpdkWrapper.Mbufs.Sound
import Mathlib.Logic.Relation

/-!
# One owner for every mbuf

A program declares, moves, assigns, sends and destroys packets in any order, and the driver
fills and completes mbufs in between.  As long as the program sends no empty packet, each
mbuf is at every moment in the pool, with the driver, or in one packet.
-/

namespace DpdkWrapper.Mbufs

open Unique

namespace Heap

/-- What a program does with packets, and what the driver does meanwhile. -/
inductive Step (heap : Heap) : Heap → Prop
  | declare {id : Nat} (count : Nat) (unused : heap.count (.packets id) = 0) :
      Step heap (heap.declare (.packets id) count)
  | get {id : Nat} (choice : Option Mbuf) (unused : heap.count (.packets id) = 0) :
      Step heap (heap.get (.packets id) choice)
  | moveConstruct {id : Nat} {source : Address} (unused : heap.count (.packets id) = 0)
      (live : heap.Live source) : Step heap (heap.moveConstruct (.packets id) source)
  | moveAssign {target source : Address} (live : heap.Live target) (live' : heap.Live source) :
      Step heap (heap.moveAssign target source)
  | clear {target : Address} (live : heap.Live target) : Step heap (heap.clear target)
  | destroy (name : Name) : Step heap (heap.destroy name)
  | moveBurst {target source : Nat} (different : source ≠ target)
      (unused : heap.count (.burst target) = 0) :
      Step heap (heap.moveBurst (.burst target) (.burst source))
  | assignBurst (target source : Nat) :
      Step heap (heap.assignBurst (.burst target) (.burst source))
  | receiveBurst {id : Nat} (maxCount : Nat) (offered : List Mbuf)
      (unused : heap.count (.burst id) = 0) :
      Step heap (heap.receiveBurst (.burst id) maxCount offered)
  | sendBurst {name : Name} {offset size : Nat} (room : Nat)
      (inside : offset + size ≤ heap.count name)
      (full : ∀ address ∈ spanOf name offset size, heap.cell address ≠ none) :
      Step heap (heap.sendBurst name offset size room).2
  | complete (mbuf : Mbuf) : Step heap (heap.complete mbuf)
  | refill (mbuf : Mbuf) : Step heap (heap.refill mbuf)

/-- The memory after any number of steps. -/
def Reachable (heap : Heap) : Prop :=
  Relation.ReflTransGen Step initial heap

theorem Sound.step {heap heap' : Heap} (sound : heap.Sound []) (step : heap.Step heap') :
    heap'.Sound [] := by
  cases step with
  | declare count unused => exact sound.declare unused count
  | get choice unused => exact sound.get unused choice
  | moveConstruct unused live => exact sound.moveConstruct unused live
  | moveAssign live live' => exact sound.moveAssign live
  | clear live => exact sound.clear _
  | destroy name => exact sound.destroy name
  | moveBurst different unused => exact sound.moveBurst different unused
  | assignBurst target source => exact sound.assignBurst target source
  | receiveBurst maxCount offered unused => exact sound.receiveBurst unused maxCount offered
  | sendBurst room inside full => exact sound.sendBurst room full
  | complete mbuf => exact sound.complete mbuf
  | refill mbuf => exact sound.refill mbuf

theorem Reachable.sound {heap : Heap} (run : heap.Reachable) : heap.Sound [] := by
  induction run with
  | refl => exact sound_initial
  | tail _ step ih => exact ih.step step

/-- An mbuf that is handed out is in one packet. -/
theorem Sound.owned_iff {heap : Heap} (sound : heap.Sound []) (mbuf : Mbuf) :
    heap.handles.owned mbuf = true ↔ ∃! address, heap.cell address = some mbuf := by
  rw [sound.sole.held, or_iff_left (List.not_mem_nil)]
  constructor
  · rintro ⟨address, found⟩
    exact ⟨address, found, fun other here => sound.sole.sole other address mbuf here found⟩
  · rintro ⟨address, found, _⟩
    exact ⟨address, found⟩

/-- The cells of packets that do not exist are empty. -/
theorem Sound.live {heap : Heap} (sound : heap.Sound []) {address : Address} {mbuf : Mbuf}
    (found : heap.cell address = some mbuf) : heap.Live address := by
  by_contra dead
  rw [sound.vacant address.1 address.2 (Nat.le_of_not_lt dead)] at found
  cases found

/-- An mbuf that is handed out is in one live packet. -/
theorem Sound.owned_iff_live {heap : Heap} (sound : heap.Sound []) (mbuf : Mbuf) :
    heap.handles.owned mbuf = true ↔
      ∃! address, heap.Live address ∧ heap.cell address = some mbuf := by
  have live : ∀ address, heap.Live address ∧ heap.cell address = some mbuf ↔
      heap.cell address = some mbuf := fun address => and_iff_right_of_imp sound.live
  simp only [sound.owned_iff, live]

/-- Without variables the program has no mbuf. -/
theorem Sound.owned_of_unused {heap : Heap} (sound : heap.Sound [])
    (unused : ∀ name, heap.count name = 0) (mbuf : Mbuf) : heap.handles.owned mbuf = false := by
  by_contra owned
  rw [Bool.not_eq_false, sound.owned_iff] at owned
  rcases owned with ⟨⟨name, i⟩, found, _⟩
  rw [sound.vacant name i (by rw [unused]; exact Nat.zero_le i)] at found
  cases found

/-! ## A forwarded burst -/

/-- Two mbufs have been received. -/
def received : Heap :=
  ((initial.refill 7).refill 8).receiveBurst (.burst 0) maxSize [7, 8]

theorem received_reachable : received.Reachable :=
  ((Relation.ReflTransGen.single (.refill 7)).tail (.refill 8)).tail (.receiveBurst _ _ rfl)

/-- They are sent on, and the queue has room for one. -/
def forwarded : Heap :=
  (received.sendBurst (.burst 0) 0 2 1).2

theorem forwarded_reachable : forwarded.Reachable :=
  received_reachable.tail (.sendBurst 1 (by decide) (by decide))

end Heap

open Heap

/-- However packets are moved around, every mbuf that is handed out is in exactly one live
packet and not with the driver, nothing is in a packet that is not alive, none is given back
twice, no burst is overrun, and when the last variable is gone every mbuf has been given
back. -/
theorem every_mbuf_has_one_owner {heap : Heap} (run : heap.Reachable) :
    (∀ mbuf, heap.handles.owned mbuf = true ↔
        ∃! address, heap.Live address ∧ heap.cell address = some mbuf) ∧
      (∀ address mbuf, heap.cell address = some mbuf → heap.Live address) ∧
      (∀ mbuf, heap.handles.owned mbuf = true → heap.driver mbuf = false) ∧
      heap.handles.misuse = [] ∧ heap.faults = [] ∧
      (∀ id, heap.count (.burst id) ≤ maxSize) ∧
      ((∀ name, heap.count name = 0) → ∀ mbuf, heap.handles.owned mbuf = false) := by
  have sound := run.sound
  exact ⟨sound.owned_iff_live, fun _ _ found => sound.live found, sound.apart,
    sound.sole.proper, sound.proper, sound.bounded, sound.owned_of_unused⟩

theorem every_mbuf_has_one_owner_of_forwarded :
    forwarded.driver 7 = true ∧
      ∃! address, forwarded.Live address ∧ forwarded.cell address = some 8 :=
  ⟨by decide, ((every_mbuf_has_one_owner forwarded_reachable).1 8).mp (by decide)⟩

end DpdkWrapper.Mbufs
