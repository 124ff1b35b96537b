import DpdkWrapper.Arp.Neighbors

/-!
# The neighbor table is a bounded map

Abstractly a neighbor table is a finite map from addresses other than 0.0.0.0 that
holds at most `capacity` of them.  Probing always ends, because the array has more
slots than the table may hold entries, and over any sequence of calls the table
answers as the map does.
-/

namespace DpdkWrapper.Arp

open Probing Wire

/-! ## The abstract table -/

/-- The known neighbors. -/
abbrev Known := Finmap fun _ : BitVec 32 => Mac

namespace Known

/-- An address that may be written: it is not 0.0.0.0, and it is known already or
there is room for one more. -/
def Accepts (capacity : Nat) (known : Known) (ip : BitVec 32) : Prop :=
  ip ≠ 0 ∧ (ip ∈ known ∨ known.keys.card < capacity)

instance (capacity : Nat) (known : Known) (ip : BitVec 32) :
    Decidable (known.Accepts capacity ip) :=
  inferInstanceAs (Decidable (_ ∧ _))

/-- Add or overwrite, within the capacity. -/
def learn (capacity : Nat) (known : Known) (ip : BitVec 32) (mac : Mac) : Bool × Known :=
  if known.Accepts capacity ip then (true, known.insert ip mac) else (false, known)

/-- Overwrite only. -/
def updateIfPresent (known : Known) (ip : BitVec 32) (mac : Mac) : Bool × Known :=
  if ip ∈ known then (true, known.insert ip mac) else (false, known)

theorem keys_insert (known : Known) (ip : BitVec 32) (mac : Mac) :
    (known.insert ip mac).keys = insert ip known.keys := by
  ext address
  rw [Finmap.mem_keys, Finmap.mem_insert, Finset.mem_insert, Finmap.mem_keys]

theorem card_insert_of_mem {known : Known} {ip : BitVec 32} (present : ip ∈ known) (mac : Mac) :
    (known.insert ip mac).keys.card = known.keys.card := by
  rw [keys_insert, Finset.insert_eq_of_mem (Finmap.mem_keys.mpr present)]

theorem card_insert_of_notMem {known : Known} {ip : BitVec 32} (absent : ip ∉ known)
    (mac : Mac) : (known.insert ip mac).keys.card = known.keys.card + 1 := by
  rw [keys_insert, Finset.card_insert_of_notMem (mt Finmap.mem_keys.mp absent)]

end Known

namespace NeighborTable

/-- Where probing for an address starts. -/
def home (neighbors : NeighborTable) (ip : BitVec 32) : Nat :=
  hashIp ip &&& (neighbors.slots.size - 1)

/-- The table holds exactly the known neighbors, counts them, and has a slot more
than it may ever fill. -/
structure Refines (neighbors : NeighborTable) (known : Known) : Prop where
  represents : Represents neighbors.home neighbors.slots known
  size : neighbors.size = known.keys.card
  bounded : known.keys.card ≤ neighbors.capacity
  room : neighbors.capacity < neighbors.slots.size

theorem make_refines (capacity : Nat) : (make capacity).Refines ∅ where
  represents := by
    apply Represents.of_vacant
    · intro ip
      change hashIp ip &&& (bitCeil _ - 1) < bitCeil _
      rw [and_mask_eq_mod]
      exact Nat.mod_lt _ (bitCeil_pos _)
    · intro _
      rfl
  size := by
    rw [Finmap.keys_empty]
    rfl
  bounded := by
    rw [Finmap.keys_empty]
    exact Nat.zero_le _
  room := by
    have large := le_bitCeil (if capacity * 2 < 2 then 2 else capacity * 2)
    change capacity < bitCeil (if capacity * 2 < 2 then 2 else capacity * 2)
    split at large
    · rw [if_pos ‹_›]
      omega
    · rw [if_neg ‹_›]
      omega

namespace Refines

variable {neighbors : NeighborTable} {known : Known} {ip : BitVec 32}

theorem vacancy (refines : neighbors.Refines known) :
    known.keys.card < neighbors.slots.size :=
  lt_of_le_of_lt refines.bounded refines.room

theorem zero_notMem (refines : neighbors.Refines known) : (0 : BitVec 32) ∉ known :=
  refines.represents.fresh

/-- Probing ends, whatever address is probed. -/
theorem findSlot_isSome (refines : neighbors.Refines known) (ip : BitVec 32) :
    (neighbors.findSlot ip).isSome := by
  have vacancy := refines.vacancy
  rw [← refines.represents.card_occupied] at vacancy
  obtain ⟨_, _, probed, _⟩ := refines.represents.valid.probe_ends vacancy ip
  change (neighbors.slots.probe neighbors.home ip).isSome
  rw [probed]
  rfl

/-- What probing for an address finds: its entry, or a free slot if it is unknown.
Writing there is writing the map. -/
theorem findSlot (refines : neighbors.Refines known) (proper : ip ≠ 0) :
    ∃ index, neighbors.findSlot ip = some index ∧
      known.lookup ip =
        (if (neighbors.slots.cells index).key = ip then
          some (neighbors.slots.cells index).value else none) ∧
      ((neighbors.slots.cells index).key = ip ∨ (neighbors.slots.cells index).key = 0) ∧
      ∀ mac, Represents neighbors.home (neighbors.slots.set index ⟨ip, mac⟩)
        (known.insert ip mac) := by
  have vacancy := refines.vacancy
  have looked := refines.represents.find? vacancy proper
  have written := fun mac => refines.represents.insert proper mac vacancy
  rw [← refines.represents.card_occupied] at vacancy
  obtain ⟨index, _, probed, _, outcome⟩ := refines.represents.valid.probe_spec vacancy proper
  rw [Table.find?, probed, Option.map_some, Option.some.injEq] at looked
  refine ⟨index, probed, looked.symm, outcome.imp_right And.left, ?_⟩
  intro mac
  obtain ⟨after, inserted, _, represents⟩ := written mac
  rw [Table.insert, probed, Option.map_some, Option.some.injEq] at inserted
  rwa [inserted]

/-- The slot found says whether the address is known. -/
theorem known_iff {index : Nat} (looked : known.lookup ip =
      (if (neighbors.slots.cells index).key = ip then
        some (neighbors.slots.cells index).value else none)) :
    ip ∈ known ↔ (neighbors.slots.cells index).key = ip := by
  rw [← Finmap.lookup_isSome, looked]
  split
  · rename_i same
    exact iff_of_true rfl same
  · rename_i other
    exact iff_of_false Bool.false_ne_true other

/-- `lookup` returns what the map holds, and nothing for 0.0.0.0. -/
theorem lookup (refines : neighbors.Refines known) (ip : BitVec 32) :
    neighbors.lookup ip = known.lookup ip := by
  rw [NeighborTable.lookup]
  split
  · rename_i zero
    subst zero
    exact (Finmap.lookup_eq_none.mpr refines.zero_notMem).symm
  · rename_i proper
    obtain ⟨index, found, looked, _⟩ := refines.findSlot proper
    rw [found, looked]

theorem mem_iff (refines : neighbors.Refines known) :
    ip ∈ known ↔ (neighbors.lookup ip).isSome := by
  rw [refines.lookup, Finmap.lookup_isSome]

/-- `learn` does what the bounded map does. -/
theorem learn (refines : neighbors.Refines known) (ip : BitVec 32) (mac : Mac) :
    (neighbors.learn ip mac).1 = (known.learn neighbors.capacity ip mac).1 ∧
      (neighbors.learn ip mac).2.Refines (known.learn neighbors.capacity ip mac).2 := by
  rw [NeighborTable.learn, Known.learn]
  split
  · rename_i zero
    rw [if_neg fun accepts : known.Accepts _ ip => accepts.1 zero]
    exact ⟨rfl, refines⟩
  · rename_i proper
    obtain ⟨index, found, looked, stopped, written⟩ := refines.findSlot proper
    have present := known_iff looked
    rw [found]
    dsimp only
    split
    · rename_i empty
      have absent : ip ∉ known := by
        rw [present, empty]
        exact Ne.symm proper
      split
      · rename_i full
        rw [refines.size] at full
        rw [if_neg fun accepts : known.Accepts _ ip =>
          accepts.2.elim absent (Nat.not_lt.mpr full)]
        exact ⟨rfl, refines⟩
      · rename_i notFull
        rw [refines.size, Nat.not_le] at notFull
        rw [if_pos ⟨proper, Or.inr notFull⟩]
        refine ⟨rfl, written mac, ?_, ?_, refines.room⟩
        · rw [Known.card_insert_of_notMem absent, ← refines.size]
        · rw [Known.card_insert_of_notMem absent]
          exact notFull
    · rename_i used
      have same := stopped.resolve_right used
      have member := present.mpr same
      rw [if_pos ⟨proper, Or.inl member⟩, same]
      refine ⟨rfl, written mac, ?_, ?_, refines.room⟩
      · rw [Known.card_insert_of_mem member]
        exact refines.size
      · rw [Known.card_insert_of_mem member]
        exact refines.bounded

/-- `update_if_present` does what the map does. -/
theorem updateIfPresent (refines : neighbors.Refines known) (ip : BitVec 32) (mac : Mac) :
    (neighbors.updateIfPresent ip mac).1 = (known.updateIfPresent ip mac).1 ∧
      (neighbors.updateIfPresent ip mac).2.Refines (known.updateIfPresent ip mac).2 := by
  rw [NeighborTable.updateIfPresent, Known.updateIfPresent]
  split
  · rename_i zero
    subst zero
    rw [if_neg refines.zero_notMem]
    exact ⟨rfl, refines⟩
  · rename_i proper
    obtain ⟨index, found, looked, _, written⟩ := refines.findSlot proper
    have present := known_iff looked
    rw [found]
    dsimp only
    split
    · rename_i other
      rw [if_neg (mt present.mp other)]
      exact ⟨rfl, refines⟩
    · rename_i same
      have member := present.mpr (not_not.mp same)
      rw [if_pos member]
      refine ⟨rfl, written mac, ?_, ?_, refines.room⟩
      · rw [Known.card_insert_of_mem member]
        exact refines.size
      · rw [Known.card_insert_of_mem member]
        exact refines.bounded

end Refines

/-- A write that fails leaves the table as it is. -/
theorem learn_eq_of_false {neighbors : NeighborTable} {ip : BitVec 32} {mac : Mac}
    (failed : (neighbors.learn ip mac).1 = false) : (neighbors.learn ip mac).2 = neighbors := by
  rw [learn] at failed ⊢
  split at failed
  · rw [if_pos ‹_›]
  · rw [if_neg ‹_›]
    split at failed
    · rfl
    · split at failed
      · rw [if_pos ‹_›]
        split at failed
        · rw [if_pos ‹_›]
        · contradiction
      · contradiction

theorem updateIfPresent_eq_of_false {neighbors : NeighborTable} {ip : BitVec 32} {mac : Mac}
    (failed : (neighbors.updateIfPresent ip mac).1 = false) :
    (neighbors.updateIfPresent ip mac).2 = neighbors := by
  rw [updateIfPresent] at failed ⊢
  split at failed
  · rw [if_pos ‹_›]
  · rw [if_neg ‹_›]
    split at failed
    · rfl
    · split at failed
      · rw [if_pos ‹_›]
      · contradiction

@[simp]
theorem learn_capacity (neighbors : NeighborTable) (ip : BitVec 32) (mac : Mac) :
    (neighbors.learn ip mac).2.capacity = neighbors.capacity := by
  rw [learn]
  split
  · rfl
  · split
    · rfl
    · split
      · split <;> rfl
      · rfl

@[simp]
theorem updateIfPresent_capacity (neighbors : NeighborTable) (ip : BitVec 32) (mac : Mac) :
    (neighbors.updateIfPresent ip mac).2.capacity = neighbors.capacity := by
  rw [updateIfPresent]
  split
  · rfl
  · split
    · rfl
    · split <;> rfl

end NeighborTable

/-! ## Sequences of calls -/

/-- A call of the table's interface. -/
inductive TableCall where
  | learn (ip : BitVec 32) (mac : Mac)
  | updateIfPresent (ip : BitVec 32) (mac : Mac)
  | lookup (ip : BitVec 32)
  deriving DecidableEq, Repr

/-- What a call returns: whether it wrote, or what it found. -/
inductive TableAnswer where
  | wrote (done : Bool)
  | found (mac : Option Mac)
  deriving DecidableEq, Repr

namespace TableCall

/-- The address that a call is about. -/
def address : TableCall → BitVec 32
  | learn ip _ => ip
  | updateIfPresent ip _ => ip
  | lookup ip => ip

/-- The call on a table. -/
def perform (neighbors : NeighborTable) : TableCall → TableAnswer × NeighborTable
  | learn ip mac => (.wrote (neighbors.learn ip mac).1, (neighbors.learn ip mac).2)
  | updateIfPresent ip mac =>
      (.wrote (neighbors.updateIfPresent ip mac).1, (neighbors.updateIfPresent ip mac).2)
  | lookup ip => (.found (neighbors.lookup ip), neighbors)

/-- The call on the bounded map. -/
def performKnown (capacity : Nat) (known : Known) : TableCall → TableAnswer × Known
  | learn ip mac => (.wrote (known.learn capacity ip mac).1, (known.learn capacity ip mac).2)
  | updateIfPresent ip mac =>
      (.wrote (known.updateIfPresent ip mac).1, (known.updateIfPresent ip mac).2)
  | lookup ip => (.found (known.lookup ip), known)

/-- What a successful write stores under an address. -/
def writes (ip : BitVec 32) : TableCall → TableAnswer → Option Mac
  | learn target mac, .wrote true => if target = ip then some mac else none
  | updateIfPresent target mac, .wrote true => if target = ip then some mac else none
  | _, _ => none

end TableCall

/-- A sequence of calls, with their answers and the table they leave. -/
def performAll (neighbors : NeighborTable) : List TableCall → List TableAnswer × NeighborTable
  | [] => ([], neighbors)
  | call :: rest =>
      let next := call.perform neighbors
      let last := performAll next.2 rest
      (next.1 :: last.1, last.2)

/-- The same calls on the bounded map. -/
def performAllKnown (capacity : Nat) (known : Known) : List TableCall → List TableAnswer × Known
  | [] => ([], known)
  | call :: rest =>
      let next := call.performKnown capacity known
      let last := performAllKnown capacity next.2 rest
      (next.1 :: last.1, last.2)

/-- What the last successful write for an address stored, among calls with their
answers. -/
def lastWrite (ip : BitVec 32) : List (TableCall × TableAnswer) → Option Mac
  | [] => none
  | exchange :: rest => (lastWrite ip rest).or (exchange.1.writes ip exchange.2)

namespace TableCall

@[simp]
theorem perform_capacity (neighbors : NeighborTable) (call : TableCall) :
    (call.perform neighbors).2.capacity = neighbors.capacity := by
  cases call with
  | learn ip mac => exact neighbors.learn_capacity ip mac
  | updateIfPresent ip mac => exact neighbors.updateIfPresent_capacity ip mac
  | lookup ip => rfl

/-- One call answers as the bounded map does, and keeps the refinement. -/
theorem perform_refines {neighbors : NeighborTable} {known : Known}
    (refines : neighbors.Refines known) (call : TableCall) :
    (call.perform neighbors).1 = (call.performKnown neighbors.capacity known).1 ∧
      (call.perform neighbors).2.Refines (call.performKnown neighbors.capacity known).2 := by
  cases call with
  | learn ip mac =>
      obtain ⟨answer, after⟩ := refines.learn ip mac
      exact ⟨congrArg TableAnswer.wrote answer, after⟩
  | updateIfPresent ip mac =>
      obtain ⟨answer, after⟩ := refines.updateIfPresent ip mac
      exact ⟨congrArg TableAnswer.wrote answer, after⟩
  | lookup ip => exact ⟨congrArg TableAnswer.found (refines.lookup ip), refines⟩

/-- One call changes the map by its write and in nothing else. -/
theorem lookup_performKnown (capacity : Nat) (known : Known) (call : TableCall)
    (ip : BitVec 32) :
    (call.performKnown capacity known).2.lookup ip =
      (call.writes ip (call.performKnown capacity known).1).or (known.lookup ip) := by
  have inserted (target : BitVec 32) (mac : Mac) : (known.insert target mac).lookup ip =
      (if target = ip then some mac else none).or (known.lookup ip) := by
    split
    · rename_i same
      rw [same, Finmap.lookup_insert, Option.some_or]
    · rename_i other
      rw [Finmap.lookup_insert_of_ne known (Ne.symm other), Option.none_or]
  cases call with
  | learn target mac =>
      rw [performKnown, Known.learn]
      split
      · exact inserted target mac
      · rfl
  | updateIfPresent target mac =>
      rw [performKnown, Known.updateIfPresent]
      split
      · exact inserted target mac
      · rfl
  | lookup target => rfl

/-- A call writes no address but its own. -/
theorem writes_of_ne {ip : BitVec 32} {call : TableCall} (other : call.address ≠ ip)
    (answer : TableAnswer) : call.writes ip answer = none := by
  unfold writes
  split
  · exact if_neg other
  · exact if_neg other
  · rfl

theorem lookup_perform {neighbors : NeighborTable} {known : Known}
    (refines : neighbors.Refines known) (call : TableCall) (ip : BitVec 32) :
    (call.perform neighbors).2.lookup ip =
      (call.writes ip (call.perform neighbors).1).or (neighbors.lookup ip) := by
  obtain ⟨answer, after⟩ := perform_refines refines call
  rw [after.lookup, lookup_performKnown, answer, refines.lookup]

end TableCall

namespace NeighborTable.Refines

variable {neighbors : NeighborTable} {known : Known}

variable (refines : neighbors.Refines known)
include refines

theorem learn_iff (ip : BitVec 32) (mac : Mac) :
    (neighbors.learn ip mac).1 = true ↔
      ip ≠ 0 ∧ ((neighbors.lookup ip).isSome ∨ neighbors.size < neighbors.capacity) := by
  rw [(refines.learn ip mac).1, ← refines.mem_iff, refines.size, Known.learn]
  split
  · rename_i accepts
    exact iff_of_true rfl accepts
  · rename_i refused
    exact iff_of_false Bool.false_ne_true refused

theorem updateIfPresent_iff (ip : BitVec 32) (mac : Mac) :
    (neighbors.updateIfPresent ip mac).1 = true ↔ (neighbors.lookup ip).isSome := by
  rw [(refines.updateIfPresent ip mac).1, ← refines.mem_iff, Known.updateIfPresent]
  split
  · rename_i present
    exact iff_of_true rfl present
  · rename_i absent
    exact iff_of_false Bool.false_ne_true absent

theorem lookup_learn {ip : BitVec 32} {mac : Mac} (learned : (neighbors.learn ip mac).1 = true) :
    (neighbors.learn ip mac).2.lookup ip = some mac := by
  have stored := (TableCall.learn ip mac).lookup_perform refines ip
  simpa only [TableCall.perform, learned, TableCall.writes, if_true, Option.some_or] using stored

theorem lookup_updateIfPresent {ip : BitVec 32} {mac : Mac}
    (updated : (neighbors.updateIfPresent ip mac).1 = true) :
    (neighbors.updateIfPresent ip mac).2.lookup ip = some mac := by
  have stored := (TableCall.updateIfPresent ip mac).lookup_perform refines ip
  simpa only [TableCall.perform, updated, TableCall.writes, if_true, Option.some_or] using stored

/-- An update adds no address. -/
theorem size_updateIfPresent (ip : BitVec 32) (mac : Mac) :
    (neighbors.updateIfPresent ip mac).2.size = neighbors.size := by
  rw [(refines.updateIfPresent ip mac).2.size, refines.size, Known.updateIfPresent]
  split
  · exact Known.card_insert_of_mem ‹_› mac
  · rfl

end NeighborTable.Refines

/-- Over any sequence of calls the table answers as the bounded map does. -/
theorem performAll_refines {neighbors : NeighborTable} {known : Known}
    (refines : neighbors.Refines known) (calls : List TableCall) :
    (performAll neighbors calls).1 = (performAllKnown neighbors.capacity known calls).1 ∧
      (performAll neighbors calls).2.Refines
        (performAllKnown neighbors.capacity known calls).2 := by
  induction calls generalizing neighbors known with
  | nil => exact ⟨rfl, refines⟩
  | cons call rest ih =>
      obtain ⟨answer, next⟩ := call.perform_refines refines
      obtain ⟨answers, last⟩ := ih next
      rw [call.perform_capacity] at answers last
      exact ⟨congrArg₂ List.cons answer answers, last⟩

/-- What is found at the end is what was written last. -/
theorem lookup_performAll {neighbors : NeighborTable} {known : Known}
    (refines : neighbors.Refines known) (calls : List TableCall) (ip : BitVec 32) :
    (performAll neighbors calls).2.lookup ip =
      (lastWrite ip (calls.zip (performAll neighbors calls).1)).or (neighbors.lookup ip) := by
  induction calls generalizing neighbors known with
  | nil => rfl
  | cons call rest ih =>
      rw [performAll]
      dsimp only
      rw [ih (call.perform_refines refines).2, call.lookup_perform refines, List.zip_cons_cons,
        lastWrite, Option.or_assoc]

@[simp]
theorem performAll_capacity (neighbors : NeighborTable) (calls : List TableCall) :
    (performAll neighbors calls).2.capacity = neighbors.capacity := by
  induction calls generalizing neighbors with
  | nil => rfl
  | cons call rest ih => exact (ih _).trans (call.perform_capacity neighbors)

namespace NeighborTable

/-- A table that some sequence of calls leaves. -/
def Reachable (neighbors : NeighborTable) : Prop :=
  ∃ capacity calls, (performAll (.make capacity) calls).2 = neighbors

theorem reachable_make (capacity : Nat) : (make capacity).Reachable :=
  ⟨capacity, [], rfl⟩

theorem Reachable.refines {neighbors : NeighborTable} (reachable : neighbors.Reachable) :
    ∃ known, neighbors.Refines known := by
  obtain ⟨capacity, calls, rfl⟩ := reachable
  exact ⟨_, (performAll_refines (make_refines capacity) calls).2⟩

end NeighborTable

/-- `neighbor_table` refines a bounded map.  After any sequence of calls the answers were
those of the map; probing ends for every address; the table counts the known addresses,
which are at most `capacity` and never 0.0.0.0; `lookup` returns what was written last.
From there `learn` succeeds exactly on an address other than 0.0.0.0 that is known or
fits, `update_if_present` exactly on a known one, a call that does not succeed changes
nothing, and none changes what is known of another address. -/
theorem neighborTable_refines_boundedMap (capacity : Nat) (calls : List TableCall) :
    let answers := (performAll (.make capacity) calls).1
    let table := (performAll (.make capacity) calls).2
    let known := (performAllKnown capacity ∅ calls).2
    answers = (performAllKnown capacity ∅ calls).1 ∧
      (∀ ip, (table.findSlot ip).isSome) ∧
      (∀ ip, table.lookup ip = known.lookup ip) ∧
      (∀ ip, table.lookup ip = lastWrite ip (calls.zip answers)) ∧
      table.lookup 0 = none ∧
      table.size = known.keys.card ∧ table.size ≤ capacity ∧
      (∀ ip mac, ((table.learn ip mac).1 = true ↔
          ip ≠ 0 ∧ ((table.lookup ip).isSome ∨ table.size < capacity)) ∧
        ((table.learn ip mac).1 = true → (table.learn ip mac).2.lookup ip = some mac) ∧
        ((table.learn ip mac).1 = false → (table.learn ip mac).2 = table)) ∧
      (∀ ip mac, ((table.updateIfPresent ip mac).1 = true ↔ (table.lookup ip).isSome) ∧
        ((table.updateIfPresent ip mac).1 = true →
          (table.updateIfPresent ip mac).2.lookup ip = some mac ∧
            (table.updateIfPresent ip mac).2.size = table.size) ∧
        ((table.updateIfPresent ip mac).1 = false →
          (table.updateIfPresent ip mac).2 = table)) ∧
      ∀ (call : TableCall) (ip : BitVec 32), call.address ≠ ip →
        (call.perform table).2.lookup ip = table.lookup ip := by
  dsimp only
  have start := NeighborTable.make_refines capacity
  obtain ⟨answers, refines⟩ := performAll_refines start calls
  have bound : (performAll (.make capacity) calls).2.capacity = capacity :=
    performAll_capacity _ calls
  have stored := lookup_performAll start calls
  generalize performAll (.make capacity) calls = run at *
  generalize known : performAllKnown capacity ∅ calls = spec
  change run.1 = (performAllKnown capacity ∅ calls).1 at answers
  change run.2.Refines (performAllKnown capacity ∅ calls).2 at refines
  rw [known] at answers refines
  refine ⟨answers, refines.findSlot_isSome, refines.lookup, ?_, ?_, refines.size, ?_, ?_, ?_, ?_⟩
  · intro ip
    rw [stored, start.lookup, Finmap.lookup_empty, Option.or_none]
  · rfl
  · rw [refines.size, ← bound]
    exact refines.bounded
  · intro ip mac
    have succeeds := refines.learn_iff ip mac
    rw [bound] at succeeds
    exact ⟨succeeds, refines.lookup_learn, NeighborTable.learn_eq_of_false⟩
  · intro ip mac
    exact ⟨refines.updateIfPresent_iff ip mac,
      fun updated => ⟨refines.lookup_updateIfPresent updated, refines.size_updateIfPresent ip mac⟩,
      NeighborTable.updateIfPresent_eq_of_false⟩
  · intro call ip other
    rw [call.lookup_perform refines, call.writes_of_ne other, Option.none_or]

end DpdkWrapper.Arp
