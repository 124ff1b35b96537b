import DpdkWrapper.Mbufs.Heap

/-!
# What every operation on packets keeps

`Sound` is the invariant of the memory: every mbuf that the program holds is in one packet or
in transit, no mbuf is both the program's and the driver's, and nothing has gone wrong.
-/

namespace DpdkWrapper.Mbufs

open Unique

namespace Heap

/-- Every mbuf of the program has one owner.  Packets that are not alive hold nothing. -/
structure Sound (transit : List Mbuf) (heap : Heap) : Prop where
  sole : heap.handles.Sole transit
  apart : ∀ mbuf, heap.handles.owned mbuf = true → heap.driver mbuf = false
  vacant : ∀ name i, heap.count name ≤ i → heap.cell (name, i) = none
  bounded : ∀ id, heap.count (.burst id) ≤ maxSize
  proper : heap.faults = []

/-- A packet that is alive. -/
def Live (heap : Heap) (address : Address) : Prop :=
  address.2 < heap.count address.1

/-- One more packet in a variable. -/
def extend (name : Name) (value : Option Mbuf) (heap : Heap) : Heap :=
  (heap.change (·.put (name, heap.count name) value)).resize name (heap.count name + 1)

theorem extend_of_unused {heap : Heap} {name : Name} (unused : heap.count name = 0)
    (value : Option Mbuf) :
    heap.extend name value = (heap.change (·.put (name, 0) value)).resize name 1 := by
  rw [extend, unused]

theorem room_of_unused {heap : Heap} {name : Name} (unused : heap.count name = 0) (id : Nat)
    (_ : name = .burst id) : heap.count name < maxSize := by
  rw [unused]
  decide

theorem sound_initial : initial.Sound [] where
  sole := Handles.sole_empty
  apart _ owned := by cases owned
  vacant _ _ _ := rfl
  bounded _ := Nat.zero_le _
  proper := rfl

section Fields

variable (heap : Heap) (action : Handles Address Mbuf → Handles Address Mbuf) (name : Name)
  (count : Nat)

@[simp]
theorem cell_change (address : Address) :
    (heap.change action).cell address = (action heap.handles).cell address :=
  rfl

@[simp]
theorem count_change : (heap.change action).count = heap.count :=
  rfl

@[simp]
theorem handles_change : (heap.change action).handles = action heap.handles :=
  rfl

@[simp]
theorem cell_resize (address : Address) :
    (heap.resize name count).cell address = heap.cell address :=
  rfl

@[simp]
theorem count_resize : (heap.resize name count).count = Function.update heap.count name count :=
  rfl

@[simp]
theorem driver_accept (mbuf : Mbuf) :
    (heap.accept mbuf).driver = Function.update heap.driver mbuf false :=
  rfl

@[simp]
theorem driver_complete (mbuf : Mbuf) :
    (heap.complete mbuf).driver = Function.update heap.driver mbuf false :=
  rfl

end Fields

/-! ## The words that an operation leaves alone -/

theorem cell_clearAll (name : Name) (places : List Nat) (heap : Heap) (address : Address) :
    (places.foldl (fun heap i => heap.change (·.destroy (name, i))) heap).cell address =
      if address.1 = name ∧ address.2 ∈ places then none else heap.cell address := by
  induction places generalizing heap with
  | nil => simp
  | cons i rest ih =>
      rw [List.foldl_cons, ih, cell_change, Handles.cell_destroy]
      by_cases same : address = (name, i)
      · rw [same, Function.update_self]
        simp
      · rw [Function.update_of_ne same]
        have elsewhere : address.1 = name → address.2 ≠ i := fun first second =>
          same (Prod.ext first second)
        by_cases here : address.1 = name
        · simp [here, elsewhere here, cell]
        · simp [here, cell]

/-- A loop in which no packet begins or ends. -/
theorem count_foldl {ι : Type} {body : Heap → ι → Heap}
    (same : ∀ heap i, (body heap i).count = heap.count) (entries : List ι) (heap : Heap) :
    (entries.foldl body heap).count = heap.count := by
  induction entries generalizing heap with
  | nil => rfl
  | cons i rest ih => exact (ih (body heap i)).trans (same heap i)

theorem count_destroy (name : Name) (heap : Heap) :
    (heap.destroy name).count = Function.update heap.count name 0 := by
  rw [destroy, count_resize]
  refine congrArg (Function.update · name 0) (count_foldl ?_ _ heap)
  exact fun _ _ => rfl

theorem count_acceptAll (raw : List Mbuf) (heap : Heap) :
    (raw.foldl (fun heap mbuf => heap.accept mbuf) heap).count = heap.count := by
  refine count_foldl ?_ raw heap
  exact fun _ _ => rfl

theorem pushBack_of_lt {name : Name} {heap : Heap} (room : heap.count name < maxSize)
    (value : Option Mbuf) : heap.pushBack name value = heap.extend name value :=
  if_pos room

theorem count_pushBackFrom {target : Name} {heap : Heap} (room : heap.count target < maxSize)
    (source : Name) (i : Nat) : (heap.pushBackFrom target source i).count =
      Function.update heap.count target (heap.count target + 1) := by
  rw [pushBackFrom, pushBack_of_lt room]
  rfl

@[simp]
theorem cell_hand (address other : Address) (heap : Heap) :
    (heap.hand address).cell other = heap.cell other := by
  unfold hand
  split
  · exact congrFun (Handles.cell_giveBack _ _) other
  · rfl

/-- The driver does not look at a packet that is not sent. -/
theorem hand_put {address other : Address} (different : other ≠ address) (heap : Heap) :
    (heap.hand other).change (·.put address none) =
      (heap.change (·.put address none)).hand other := by
  have same : (heap.change (·.put address none)).cell other = heap.cell other := by
    rw [cell_change, Handles.cell_put, Function.update_of_ne different, cell]
  unfold hand
  rw [same]
  split
  · rename_i mbuf _
    let taken (handles : Handles Address Mbuf) : Heap :=
      { heap with handles, driver := Function.update heap.driver mbuf true }
    exact congrArg taken (Handles.put_giveBack address none mbuf heap.handles)
  · rfl

theorem foldl_hand_put {address : Address} {span : List Address} (outside : address ∉ span)
    (heap : Heap) :
    (span.foldl (fun heap address => heap.hand address) heap).change (·.put address none) =
      span.foldl (fun heap address => heap.hand address) (heap.change (·.put address none)) := by
  induction span generalizing heap with
  | nil => rfl
  | cons other rest ih =>
      rw [List.mem_cons, not_or] at outside
      rw [List.foldl_cons, List.foldl_cons, ih outside.2, hand_put (Ne.symm outside.1)]

theorem foldl_inspect {span : List Address} {heap : Heap}
    (full : ∀ address ∈ span, heap.cell address ≠ none) :
    span.foldl (fun heap address => heap.inspect address) heap = heap := by
  induction span with
  | nil => rfl
  | cons address rest ih =>
      rw [List.foldl_cons, inspect, if_neg (full address List.mem_cons_self)]
      exact ih fun other member => full other (List.mem_cons_of_mem address member)

theorem nodup_spanOf (name : Name) (offset size : Nat) : (spanOf name offset size).Nodup := by
  refine List.Nodup.map ?_ List.nodup_range
  intro i j same
  exact Nat.add_left_cancel (congrArg Prod.snd same)

/-- Packets that all hold something are sent from the first on. -/
theorem sendBurst_of_full {name : Name} {offset size : Nat} {heap : Heap} (room : Nat)
    (full : ∀ address ∈ spanOf name offset size, heap.cell address ≠ none) :
    heap.sendBurst name offset size room =
      let sent := (spanOf name offset size).take (min room (spanOf name offset size).length)
      (min room (spanOf name offset size).length,
        sent.foldl (fun heap address => heap.change (·.put address none))
          (sent.foldl (fun heap address => heap.hand address) heap)) := by
  simp only [sendBurst, ethTxBurst, foldl_inspect full]

namespace Sound

variable {raw : List Mbuf} {heap : Heap} {transit : List Mbuf} {name : Name} {mbuf : Mbuf}

theorem perm (sound : heap.Sound transit) {others : List Mbuf} (same : transit.Perm others) :
    heap.Sound others :=
  { sound with sole := sound.sole.perm same }

/-- A change of the packets that are alive. -/
theorem change (sound : heap.Sound transit) {others : List Mbuf}
    {action : Handles Address Mbuf → Handles Address Mbuf}
    (sole : (action heap.handles).Sole others)
    (owned : ∀ mbuf, (action heap.handles).owned mbuf = true → heap.handles.owned mbuf = true)
    (cells : ∀ address, ¬heap.Live address → heap.cell address = none →
      (action heap.handles).cell address = none) : (heap.change action).Sound others where
  sole := sole
  apart mbuf held := sound.apart mbuf (owned mbuf held)
  vacant name i beyond := cells (name, i) (Nat.not_lt.mpr beyond) (sound.vacant name i beyond)
  bounded := sound.bounded
  proper := sound.proper

/-! ## Packets -/

theorem declare (sound : heap.Sound transit) {id : Nat} (unused : heap.count (.packets id) = 0)
    (count : Nat) : (heap.declare (.packets id) count).Sound transit where
  sole := sound.sole
  apart := sound.apart
  vacant name i beyond := by
    refine sound.vacant name i ?_
    by_cases same : name = .packets id
    · rw [same, unused]
      exact Nat.zero_le i
    · rwa [Heap.declare, count_resize, Function.update_of_ne same] at beyond
  bounded other := by
    rw [Heap.declare, count_resize, Function.update_of_ne (by rintro ⟨⟩)]
    exact sound.bounded other
  proper := sound.proper

/-- One more packet is alive; it holds nothing yet. -/
theorem grow (sound : heap.Sound transit)
    (room : ∀ id, name = .burst id → heap.count name < maxSize) :
    (heap.resize name (heap.count name + 1)).Sound transit where
  sole := sound.sole
  apart := sound.apart
  vacant other i beyond := by
    refine sound.vacant other i ?_
    rw [count_resize] at beyond
    by_cases same : other = name
    · rw [same, Function.update_self] at beyond
      rw [same]
      exact Nat.le_of_succ_le beyond
    · rwa [Function.update_of_ne same] at beyond
  bounded id := by
    rw [count_resize]
    by_cases same : Name.burst id = name
    · rw [same, Function.update_self]
      exact room id same.symm
    · rw [Function.update_of_ne same]
      exact sound.bounded id
  proper := sound.proper

/-- A live packet that holds nothing takes a pointer in transit. -/
theorem put (sound : heap.Sound (mbuf :: transit)) {address : Address} (live : heap.Live address)
    (null : heap.cell address = none) :
    (heap.change (·.put address (some mbuf))).Sound transit := by
  refine sound.change (sound.sole.put null) (fun _ held => held) ?_
  intro other dead nothing
  have different : other ≠ address := by
    rintro rfl
    exact dead live
  rw [Handles.cell_put, Function.update_of_ne different]
  exact nothing

/-- An mbuf leaves the pool. -/
theorem handOut (sound : heap.Sound transit) (stock : heap.handles.owned mbuf = false)
    (pooled : heap.driver mbuf = false) :
    (heap.change (·.handOut mbuf)).Sound (mbuf :: transit) where
  sole := sound.sole.handOut stock
  apart other held := by
    rw [handles_change, Handles.owned_handOut] at held
    by_cases same : other = mbuf
    · rw [same]
      exact pooled
    · rw [Function.update_of_ne same] at held
      exact sound.apart other held
  vacant := sound.vacant
  bounded := sound.bounded
  proper := sound.proper

/-- A pointer is taken out of its packet. -/
theorem release (sound : heap.Sound transit) {address : Address}
    (found : heap.cell address = some mbuf) :
    (heap.change (·.put address none)).Sound (mbuf :: transit) := by
  refine sound.change (sound.sole.release found) (fun _ held => held) ?_
  intro other _ nothing
  rw [Handles.cell_put]
  by_cases same : other = address
  · rw [same, Function.update_self]
  · rw [Function.update_of_ne same]
    exact nothing

/-- The new packet of a variable takes a pointer in transit. -/
theorem extend (sound : heap.Sound (mbuf :: transit))
    (room : ∀ id, name = .burst id → heap.count name < maxSize) :
    (heap.extend name (some mbuf)).Sound transit := by
  refine (sound.grow room).put ?_ (sound.vacant name _ (Nat.le_refl _))
  rw [Live, count_resize, Function.update_self]
  exact Nat.lt_succ_self _

section

variable (sound : heap.Sound transit)
include sound

/-- The new packet of a variable is empty. -/
theorem extend_none (room : ∀ id, name = .burst id → heap.count name < maxSize) :
    (heap.extend name none).Sound transit := by
  have null : heap.handles.cell (name, heap.count name) = none :=
    sound.vacant name _ (Nat.le_refl _)
  have same : heap.change (·.put (name, heap.count name) none) = heap := by
    rw [Heap.change, ← null, Handles.put_cell]
  rw [Heap.extend, same]
  exact sound.grow room

/-- The new packet of a variable takes over the pointer of another one. -/
theorem extendFrom {source : Address} (live : heap.Live source)
    (room : ∀ id, name = .burst id → heap.count name < maxSize) :
    ((heap.extend name (heap.cell source)).change (·.put source none)).Sound transit := by
  have different : (name, heap.count name) ≠ source := by
    rintro rfl
    exact Nat.lt_irrefl _ live
  refine (sound.grow room).change (sound.sole.moveConstruct different
    (sound.vacant name _ (Nat.le_refl _))) (fun _ held => held) ?_
  intro other dead nothing
  have elsewhere : other ≠ (name, heap.count name) := by
    rintro rfl
    rw [Live, count_resize, Function.update_self] at dead
    exact dead (Nat.lt_succ_self _)
  rw [Handles.cell_moveConstruct]
  by_cases same : other = source
  · rw [same, Function.update_self]
  · rw [Function.update_of_ne same, Function.update_of_ne elsewhere]
    exact nothing

theorem moveAssign {target source : Address} (live : heap.Live target) :
    (heap.moveAssign target source).Sound transit := by
  refine sound.change (sound.sole.moveAssign target source) ?_ ?_
  · exact fun _ => Handles.owned_of_moveAssign
  · intro other dead nothing
    have elsewhere : other ≠ target := by
      rintro rfl
      exact dead live
    rw [Handles.cell_moveAssign]
    split
    · exact nothing
    · by_cases same : other = source
      · rw [same, Function.update_self]
      · rw [Function.update_of_ne same, Function.update_of_ne elsewhere]
        exact nothing

/-- The end of a packet, or the assignment of an empty one. -/
theorem clear (address : Address) : (heap.clear address).Sound transit := by
  refine sound.change sound.sole.destroy (fun _ => Handles.owned_of_giveBackAt) ?_
  intro other _ nothing
  rw [Handles.cell_destroy]
  by_cases same : other = address
  · rw [same, Function.update_self]
  · rw [Function.update_of_ne same]
    exact nothing

theorem get (unused : heap.count name = 0) (choice : Option Mbuf) :
    (heap.get name choice).Sound transit := by
  have room := room_of_unused unused
  have empty := sound.extend_none room
  rw [extend_of_unused unused] at empty
  unfold Heap.get pktmbufAlloc
  split
  · split
    · exact empty
    · rename_i stock
      rw [Bool.or_eq_true, not_or, Bool.not_eq_true, Bool.not_eq_true] at stock
      have full := (sound.handOut stock.1 stock.2).extend room
      rwa [@extend_of_unused (heap.change _) name unused] at full
  · exact empty

theorem moveConstruct (unused : heap.count name = 0) {source : Address} (live : heap.Live source) :
    (heap.moveConstruct name source).Sound transit := by
  have extended := sound.extendFrom live (room_of_unused unused)
  rwa [extend_of_unused unused] at extended

end

/-! ## Whole variables -/

/-- Some packets of a variable are destroyed. -/
theorem clearAll (sound : heap.Sound transit) (name : Name) (places : List Nat) :
    (places.foldl (fun heap i => heap.change (·.destroy (name, i))) heap).Sound transit := by
  induction places generalizing heap with
  | nil => exact sound
  | cons i rest ih => exact ih (sound.clear (name, i))

/-- A variable without pointers ends. -/
theorem drop (sound : heap.Sound transit) (empty : ∀ i, heap.cell (name, i) = none) :
    (heap.resize name 0).Sound transit where
  sole := sound.sole
  apart := sound.apart
  vacant other i beyond := by
    by_cases same : other = name
    · rw [same]
      exact empty i
    · rw [count_resize, Function.update_of_ne same] at beyond
      exact sound.vacant other i beyond
  bounded id := by
    rw [count_resize]
    by_cases same : Name.burst id = name
    · rw [same, Function.update_self]
      exact Nat.zero_le _
    · rw [Function.update_of_ne same]
      exact sound.bounded id
  proper := sound.proper

theorem destroy (sound : heap.Sound transit) (name : Name) : (heap.destroy name).Sound transit := by
  refine (sound.clearAll name _).drop ?_
  intro i
  rw [cell_clearAll]
  split
  · rfl
  · rename_i outside
    rw [not_and_or] at outside
    rcases outside with other | beyond
    · exact absurd rfl other
    · rw [List.mem_range, Nat.not_lt] at beyond
      exact sound.vacant name i beyond

/-! ## Bursts -/

theorem pushBackFrom (sound : heap.Sound transit) {target source : Name} {i : Nat}
    (live : heap.Live (source, i)) (room : heap.count target < maxSize) :
    (heap.pushBackFrom target source i).Sound transit := by
  rw [Heap.pushBackFrom, pushBack_of_lt room]
  exact sound.extendFrom live fun _ _ => room

/-- The loop over the packets of the other burst. -/
theorem pushBackAll (sound : heap.Sound transit) {target source : Name}
    (different : source ≠ target) {places : List Nat}
    (live : ∀ i ∈ places, heap.Live (source, i))
    (room : heap.count target + places.length ≤ maxSize) :
    (places.foldl (fun heap i => heap.pushBackFrom target source i) heap).Sound transit := by
  induction places generalizing heap with
  | nil => exact sound
  | cons i rest ih =>
      rw [List.length_cons] at room
      have fits : heap.count target < maxSize := by omega
      refine ih (sound.pushBackFrom (live i List.mem_cons_self) fits) ?_ ?_
      · intro j member
        rw [Live, count_pushBackFrom fits, Function.update_of_ne different]
        exact live j (List.mem_cons_of_mem i member)
      · rw [count_pushBackFrom fits, Function.update_self]
        omega

theorem moveBurst (sound : heap.Sound transit) {target source : Nat} (different : source ≠ target)
    (unused : heap.count (.burst target) = 0) :
    (heap.moveBurst (.burst target) (.burst source)).Sound transit := by
  refine sound.pushBackAll (fun same => different (Name.burst.inj same)) ?_ ?_
  · exact fun i member => List.mem_range.mp member
  · rw [unused, Nat.zero_add, List.length_range]
    exact sound.bounded source

theorem assignBurst (sound : heap.Sound transit) (target source : Nat) :
    (heap.assignBurst (.burst target) (.burst source)).Sound transit := by
  unfold Heap.assignBurst
  split
  · exact sound
  · rename_i different
    refine (sound.destroy _).moveBurst (fun same => different (congrArg Name.burst same.symm)) ?_
    rw [count_destroy, Function.update_self]

/-! ## The driver -/

theorem accept (sound : heap.Sound transit) (held : heap.driver mbuf = true) :
    (heap.accept mbuf).Sound (mbuf :: transit) := by
  have stock : heap.handles.owned mbuf = false := by
    by_contra owned
    rw [Bool.not_eq_false] at owned
    rw [sound.apart mbuf owned] at held
    cases held
  constructor
  case sole => exact sound.sole.handOut stock
  case apart =>
    intro other owned
    rw [driver_accept]
    by_cases same : other = mbuf
    · rw [same, Function.update_self]
    · rw [Heap.accept, handles_change, Handles.owned_handOut, Function.update_of_ne same] at owned
      rw [Function.update_of_ne same]
      exact sound.apart other owned
  case vacant => exact sound.vacant
  case bounded => exact sound.bounded
  case proper => exact sound.proper

theorem acceptAll (sound : heap.Sound transit) {raw : List Mbuf} (nodup : raw.Nodup)
    (held : ∀ mbuf ∈ raw, heap.driver mbuf = true) :
    (raw.foldl (fun heap mbuf => heap.accept mbuf) heap).Sound (raw ++ transit) := by
  induction raw generalizing heap transit with
  | nil => exact sound
  | cons mbuf rest ih =>
      obtain ⟨fresh, nodup⟩ := List.nodup_cons.mp nodup
      have accepted := sound.accept (held mbuf List.mem_cons_self)
      refine (ih accepted nodup ?_).perm List.perm_middle
      intro other member
      have different : other ≠ mbuf := by
        rintro rfl
        exact fresh member
      rw [driver_accept, Function.update_of_ne different]
      exact held other (List.mem_cons_of_mem mbuf member)

theorem pushRaw (sound : heap.Sound (raw ++ transit))
    (room : heap.count name + raw.length ≤ maxSize) :
    (raw.foldl (fun heap mbuf => heap.pushBack name (some mbuf)) heap).Sound transit := by
  induction raw generalizing heap with
  | nil => exact sound
  | cons mbuf rest ih =>
      rw [List.length_cons] at room
      have fits : heap.count name < maxSize := by omega
      rw [List.foldl_cons, pushBack_of_lt fits]
      refine ih (sound.extend fun _ _ => fits) ?_
      rw [Heap.extend, count_resize, Function.update_self]
      omega

section

variable (sound : heap.Sound transit)
include sound

theorem receiveBurst (unused : heap.count name = 0) (maxCount : Nat) (offered : List Mbuf) :
    (heap.receiveBurst name maxCount offered).Sound transit := by
  unfold Heap.receiveBurst ethRxBurst
  refine (sound.acceptAll ?_ ?_).pushRaw ?_
  · exact (List.nodup_dedup _).sublist (List.take_sublist _ _)
  · intro mbuf member
    have offered := List.mem_dedup.mp (List.mem_of_mem_take member)
    exact (List.mem_filter.mp offered).2
  · rw [count_acceptAll, unused, Nat.zero_add]
    refine Nat.le_trans (List.length_take_le _ _) ?_
    split
    · exact Nat.le_refl _
    · rename_i small
      exact Nat.not_lt.mp small

/-- The driver takes an mbuf, and the packet lets go of it. -/
theorem transfer {address : Address} (full : heap.cell address ≠ none) :
    ((heap.hand address).change (·.put address none)).Sound transit := by
  obtain ⟨mbuf, found⟩ := Option.ne_none_iff_exists'.mp full
  have released := sound.release found
  have given := released.sole.giveBack
  rw [hand, found]
  constructor
  case sole =>
    rw [handles_change, ← Handles.put_giveBack] at given
    exact given
  case apart =>
    intro other owned
    have unlike : other ≠ mbuf := by
      rintro rfl
      have gone : ((heap.handles.giveBack other).put address none).owned other = true := owned
      rw [Handles.owned_put, Handles.owned_giveBack, Function.update_self] at gone
      cases gone
    have before : ((heap.handles.giveBack mbuf).put address none).owned other = true := owned
    rw [Handles.owned_put, Handles.owned_giveBack, Function.update_of_ne unlike] at before
    change Function.update heap.driver mbuf true other = false
    rw [Function.update_of_ne unlike]
    exact sound.apart other before
  case vacant =>
    intro name i beyond
    change ((heap.handles.giveBack mbuf).put address none).cell (name, i) = none
    rw [Handles.cell_put, Handles.cell_giveBack]
    exact released.vacant name i beyond
  case bounded => exact sound.bounded
  case proper => exact sound.proper

/-- The driver takes some mbufs, and then the packets let go of them. -/
theorem transferAll {span : List Address} (nodup : span.Nodup)
    (full : ∀ address ∈ span, heap.cell address ≠ none) :
    (span.foldl (fun heap address => heap.change (·.put address none))
      (span.foldl (fun heap address => heap.hand address) heap)).Sound transit := by
  induction span generalizing heap with
  | nil => exact sound
  | cons address rest ih =>
      obtain ⟨fresh, nodup⟩ := List.nodup_cons.mp nodup
      rw [List.foldl_cons, List.foldl_cons, foldl_hand_put fresh]
      refine ih (sound.transfer (full address List.mem_cons_self)) nodup ?_
      intro other member
      have different : other ≠ address := by
        rintro rfl
        exact fresh member
      rw [cell_change, Handles.cell_put, Function.update_of_ne different]
      change (heap.hand address).cell other ≠ none
      rw [cell_hand]
      exact full other (List.mem_cons_of_mem address member)

theorem sendBurst {offset size : Nat} (room : Nat)
    (full : ∀ address ∈ spanOf name offset size, heap.cell address ≠ none) :
    (heap.sendBurst name offset size room).2.Sound transit := by
  rw [sendBurst_of_full room full]
  refine sound.transferAll ?_ ?_
  · exact (nodup_spanOf name offset size).sublist (List.take_sublist _ _)
  · exact fun address member => full address (List.mem_of_mem_take member)

theorem complete (mbuf : Mbuf) :
    (heap.complete mbuf).Sound transit where
  sole := sound.sole
  apart other owned := by
    rw [driver_complete]
    by_cases same : other = mbuf
    · rw [same, Function.update_self]
    · rw [Function.update_of_ne same]
      exact sound.apart other owned
  vacant := sound.vacant
  bounded := sound.bounded
  proper := sound.proper

theorem refill (mbuf : Mbuf) : (heap.refill mbuf).Sound transit := by
  unfold Heap.refill
  split
  · exact sound
  · rename_i stock
    constructor
    case sole => exact sound.sole
    case apart =>
      intro other owned
      have different : other ≠ mbuf := by
        rintro rfl
        exact stock owned
      change Function.update heap.driver mbuf true other = false
      rw [Function.update_of_ne different]
      exact sound.apart other owned
    case vacant => exact sound.vacant
    case bounded => exact sound.bounded
    case proper => exact sound.proper

end

end Sound

end Heap

end DpdkWrapper.Mbufs
