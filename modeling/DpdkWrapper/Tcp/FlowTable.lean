import DpdkWrapper.Probing.Erase

/-!
# The flow table

Connection lookup by peer address, peer port and local port.  The table is an
open-addressing array of a power-of-two size at least twice its capacity, with
key zero marking an empty cell, so the general theory of linear probing applies
and the table behaves as a finite map.
-/

namespace DpdkWrapper.Tcp

open Probing

/-- `flow_table`: cells hold a flow key and a slot index. -/
abbrev FlowTable := Table (BitVec 64) Nat

namespace FlowTable

/-- What `find` returns for an absent key, `UINT32_MAX`. -/
def npos : Nat := 0xffffffff

/-- `flow_table::flow_table`.  The capacity is a 16-bit number at its only call,
so doubling it does not overflow. -/
def make (capacity : Nat) : FlowTable where
  size := bitCeil (max (capacity * 2) 2)
  cells _ := ⟨0, 0⟩

/-- `flow_table::key`. -/
def key (peerIp : BitVec 32) (peerPort localPort : BitVec 16) : BitVec 64 :=
  (peerIp.setWidth 64 <<< 32) ||| (peerPort.setWidth 64 <<< 16) ||| localPort.setWidth 64

/-- `flow_table::home`, with `mask_` one less than the number of entries. -/
def home (size : Nat) (k : BitVec 64) : Nat :=
  let h := k * 0x9e3779b97f4a7c15#64
  (h ^^^ (h >>> 32)).toNat &&& (size - 1)

/-- `flow_table::find`; `none` if the probing loop does not end. -/
def find (flows : FlowTable) (k : BitVec 64) : Option Nat :=
  (flows.find? (home flows.size) k).map fun found => found.getD npos

/-- `flow_table::insert`; `none` if the probing loop does not end. -/
def insert (flows : FlowTable) (k : BitVec 64) (value : Nat) : Option FlowTable :=
  Table.insert (home flows.size) flows k value

/-- `flow_table::erase`; `none` if one of its loops does not end. -/
def erase (flows : FlowTable) (k : BitVec 64) : Option FlowTable :=
  Table.erase (home flows.size) flows k

/-! ## Keys -/

/-- Addresses and ports have their own bits in the key. -/
theorem key_toNat (peerIp : BitVec 32) (peerPort localPort : BitVec 16) :
    (key peerIp peerPort localPort).toNat =
      peerIp.toNat * 2 ^ 32 + peerPort.toNat * 2 ^ 16 + localPort.toNat := by
  have ipBound := peerIp.isLt
  have peerBound := peerPort.isLt
  have localBound := localPort.isLt
  simp only [key, BitVec.toNat_or, BitVec.toNat_shiftLeft, BitVec.toNat_setWidth]
  rw [Nat.mod_eq_of_lt (by omega : peerIp.toNat < 2 ^ 64),
    Nat.mod_eq_of_lt (by omega : peerPort.toNat < 2 ^ 64),
    Nat.mod_eq_of_lt (by omega : localPort.toNat < 2 ^ 64),
    Nat.mod_eq_of_lt (by rw [Nat.shiftLeft_eq]; omega : peerIp.toNat <<< 32 < 2 ^ 64),
    Nat.mod_eq_of_lt (by rw [Nat.shiftLeft_eq]; omega : peerPort.toNat <<< 16 < 2 ^ 64),
    Nat.or_assoc,
    ← Nat.shiftLeft_add_eq_or_of_lt localBound,
    ← Nat.shiftLeft_add_eq_or_of_lt (by rw [Nat.shiftLeft_eq]; omega),
    Nat.shiftLeft_eq, Nat.shiftLeft_eq]
  omega

/-- Distinct tuples have distinct keys. -/
theorem key_inj {peerIp peerIp' : BitVec 32}
    {peerPort localPort peerPort' localPort' : BitVec 16} :
    key peerIp peerPort localPort = key peerIp' peerPort' localPort' ↔
      peerIp = peerIp' ∧ peerPort = peerPort' ∧ localPort = localPort' := by
  constructor
  · intro same
    have numbers := congrArg BitVec.toNat same
    rw [key_toNat, key_toNat] at numbers
    have bounds := And.intro peerPort.isLt (And.intro localPort.isLt
      (And.intro peerPort'.isLt localPort'.isLt))
    refine ⟨BitVec.eq_of_toNat_eq ?_, BitVec.eq_of_toNat_eq ?_, BitVec.eq_of_toNat_eq ?_⟩ <;>
      omega
  · rintro ⟨rfl, rfl, rfl⟩
    rfl

theorem key_ne_zero {peerIp : BitVec 32} (named : peerIp ≠ 0)
    (peerPort localPort : BitVec 16) : key peerIp peerPort localPort ≠ 0 := by
  intro zero
  apply named
  have number := congrArg BitVec.toNat zero
  rw [key_toNat] at number
  change _ = 0 at number
  apply BitVec.eq_of_toNat_eq
  change peerIp.toNat = 0
  omega

/-! ## Refinement -/

/-- A finite map from keys to slot indices. -/
abbrev Map := Finmap fun _ : BitVec 64 => Nat

/-- The table holds exactly the entries of a map, and has room for more than
`capacity` of them. -/
structure Refines (flows : FlowTable) (capacity : Nat) (map : Map) : Prop where
  represents : Represents (home flows.size) flows map
  room : capacity < flows.size

/-- A cell of the table holds this entry; key zero marks an empty cell. -/
def HasEntry (flows : FlowTable) (k : BitVec 64) (value : Nat) : Prop :=
  k ≠ 0 ∧ ∃ position < flows.size, flows.cells position = ⟨k, value⟩

theorem Refines.hasEntry_iff {flows : FlowTable} {capacity : Nat} {map : Map}
    (refines : Refines flows capacity map) {k : BitVec 64} {value : Nat} :
    flows.HasEntry k value ↔ map.lookup k = some value := by
  by_cases zero : k = 0
  · subst zero
    have absent : map.lookup 0 = none := Finmap.lookup_eq_none.mpr refines.represents.fresh
    rw [HasEntry, absent]
    simp
  · rw [HasEntry, refines.represents.entry zero]
    exact and_iff_right zero

theorem home_lt (value : Nat) (k : BitVec 64) :
    home (bitCeil value) k < bitCeil value := by
  rw [home, and_mask_eq_mod]
  exact Nat.mod_lt _ (bitCeil_pos value)

/-- A new table is empty. -/
theorem make_refines {capacity : Nat} (positive : 0 < capacity) :
    Refines (make capacity) capacity ∅ where
  represents := .of_vacant (home_lt _) fun _ => rfl
  room := by
    have large := le_bitCeil (max (capacity * 2) 2)
    change capacity < bitCeil (max (capacity * 2) 2)
    omega

section

variable {flows : FlowTable} {capacity : Nat} {map : Map} (refines : Refines flows capacity map)
  (fits : map.keys.card ≤ capacity) {k : BitVec 64} (proper : k ≠ 0)
include flows capacity map refines fits k proper

theorem Refines.find : flows.find k = some ((map.lookup k).getD npos) := by
  rw [FlowTable.find,
    refines.represents.find? (lt_of_le_of_lt fits refines.room) proper, Option.map_some]

theorem Refines.insert (value : Nat) :
    ∃ after, flows.insert k value = some after ∧
      Refines after capacity (map.insert k value) := by
  obtain ⟨after, inserted, sameSize, represents⟩ :=
    refines.represents.insert proper value (lt_of_le_of_lt fits refines.room)
  refine ⟨after, inserted, ?_, ?_⟩
  · rwa [sameSize]
  · rw [sameSize]
    exact refines.room

theorem Refines.erase :
    ∃ after, flows.erase k = some after ∧ Refines after capacity (map.erase k) := by
  obtain ⟨after, erased, sameSize, represents⟩ :=
    refines.represents.erase (lt_of_le_of_lt fits refines.room) proper
  refine ⟨after, erased, ?_, ?_⟩
  · rwa [sameSize]
  · rw [sameSize]
    exact refines.room

end

/-! ## Sequences of operations -/

/-- A mutation of the table. -/
inductive Op where
  | insert (k : BitVec 64) (value : Nat)
  | erase (k : BitVec 64)
  deriving DecidableEq, Repr

namespace Op

def key : Op → BitVec 64
  | insert k _ => k
  | erase k => k

/-- The operation on the table. -/
def apply (flows : FlowTable) : Op → Option FlowTable
  | insert k value => flows.insert k value
  | erase k => flows.erase k

/-- The same operation on a finite map. -/
def applyMap (map : Map) : Op → Map
  | insert k value => map.insert k value
  | erase k => map.erase k

end Op

/-- The finite map that a sequence of operations leaves. -/
def mapOf (ops : List Op) : Map :=
  ops.foldl Op.applyMap ∅

/-- One operation of a sequence. -/
theorem Refines.apply {flows : FlowTable} {capacity : Nat} {map : Map}
    (refines : Refines flows capacity map) (fits : map.keys.card ≤ capacity)
    {op : Op} (proper : op.key ≠ 0) :
    ∃ after, op.apply flows = some after ∧ Refines after capacity (op.applyMap map) := by
  cases op with
  | insert k value => exact refines.insert fits proper value
  | erase k => exact refines.erase fits proper

/-- Every operation of a sequence ends, and the table it leaves refines the map
it leaves. -/
theorem Refines.run {flows : FlowTable} {capacity : Nat} {map : Map}
    (refines : Refines flows capacity map) {ops : List Op}
    (proper : ∀ op ∈ ops, op.key ≠ 0)
    (fits : ∀ before, before <+: ops →
      (before.foldl Op.applyMap map).keys.card ≤ capacity) :
    ∃ after, ops.foldlM Op.apply flows = some after ∧
      Refines after capacity (ops.foldl Op.applyMap map) := by
  induction ops generalizing flows map with
  | nil => exact ⟨flows, rfl, refines⟩
  | cons op rest ih =>
      have start : map.keys.card ≤ capacity := fits [] (List.nil_prefix)
      obtain ⟨next, applied, nextRefines⟩ :=
        refines.apply start (proper op List.mem_cons_self)
      obtain ⟨after, ran, finally_⟩ := ih nextRefines
        (fun other member => proper other (List.mem_cons_of_mem op member))
        (fun before isPrefix => fits (op :: before) ((List.prefix_cons_inj op).mpr isPrefix))
      refine ⟨after, ?_, finally_⟩
      rw [List.foldlM_cons, applied]
      exact ran

/-- `flow_table` refines a finite map: over any sequence of insertions and
deletions of non-zero keys that never holds more than `capacity` keys, every
probing and shifting loop ends, and `find` then returns what the map holds. -/
theorem find_eq_lookup_mapOf {capacity : Nat} (positive : 1 ≤ capacity)
    (ops : List Op) (proper : ∀ op ∈ ops, op.key ≠ 0)
    (fits : ∀ before, before <+: ops → (mapOf before).keys.card ≤ capacity) :
    ∃ flows, ops.foldlM Op.apply (make capacity) = some flows ∧
      ∀ k, k ≠ 0 → flows.find k = some (((mapOf ops).lookup k).getD npos) := by
  obtain ⟨flows, ran, refines⟩ := (make_refines positive).run proper fits
  refine ⟨flows, ran, ?_⟩
  intro k nonzero
  exact refines.find (fits ops (List.prefix_refl ops)) nonzero

/-- Two keys whose home is the last of four cells: the second one lies in the first cell
until the first one is erased, and then moves back across the end of the array. -/
theorem find_after_replacing_key :
    let ops := [Op.insert 3 7, Op.insert 8 9, Op.erase 3, Op.insert 1 5]
    home 4 3 = 3 ∧ home 4 8 = 3 ∧
      ∃ flows, ops.foldlM Op.apply (make 2) = some flows ∧ flows.size = 4 ∧
        (flows.cells 3).key = 8 ∧ flows.find 8 = some 9 ∧ flows.find 1 = some 5 ∧
        flows.find 3 = some npos := by
  intro ops
  have fits : ∀ before, before <+: ops → (mapOf before).keys.card ≤ 2 := by
    intro before isPrefix
    have shapes : before = [] ∨ before = ops.take 1 ∨ before = ops.take 2 ∨
        before = ops.take 3 ∨ before = ops := by
      have member := List.mem_inits before _ |>.mpr isPrefix
      simpa [List.inits, ops] using member
    rcases shapes with rfl | rfl | rfl | rfl | rfl <;> decide
  obtain ⟨flows, ran, found⟩ := find_eq_lookup_mapOf (by decide : 1 ≤ 2) ops (by decide) fits
  have cells : (ops.foldlM Op.apply (make 2)).map (fun flows => (flows.size, (flows.cells 3).key)) =
      some (4, 8) := by decide
  rw [ran, Option.map_some, Option.some.injEq, Prod.mk.injEq] at cells
  refine ⟨by decide, by decide, flows, ran, cells.1, cells.2, ?_, ?_, ?_⟩
  · exact (found 8 (by decide)).trans (by decide)
  · exact (found 1 (by decide)).trans (by decide)
  · exact (found 3 (by decide)).trans (by decide)

end FlowTable

end DpdkWrapper.Tcp
