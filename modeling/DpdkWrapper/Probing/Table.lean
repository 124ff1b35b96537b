import Mathlib.Data.Finmap
import Mathlib.Data.Finset.Card
import Mathlib.Tactic.Linarith

/-!
# Open addressing with linear probing

A table is an array of cells, each holding a key and a value; one key, the
type's default, marks an empty cell.  A key is looked for from its home cell
onwards, cyclically, until it or an empty cell is met.

The representation invariant says that no empty cell separates an entry from
its home.  It is cyclic, so each proof first cuts the circle open at an empty
cell: no entry's probe path crosses that cell, and along the cut circle all
paths run upwards.
-/

namespace DpdkWrapper.Probing

/-- One array cell. -/
structure Cell (K V : Type) where
  key : K
  value : V
  deriving DecidableEq, Inhabited

/-- An array of cells.  Only indices below `size` are meaningful. -/
structure Table (K V : Type) where
  size : Nat
  cells : Nat → Cell K V

/-- The number of increments modulo `size` that take `origin` to `target`. -/
def cyclicDist (size origin target : Nat) : Nat :=
  (target + size - origin) % size

/-- The array index `offset` places after `origin`. -/
def place (size origin offset : Nat) : Nat :=
  (origin + offset) % size

theorem place_lt {size : Nat} (positive : 0 < size) (origin offset : Nat) :
    place size origin offset < size :=
  Nat.mod_lt _ positive

theorem place_eq {size origin offset : Nat} (inside : origin < size)
    (bound : offset < size) :
    place size origin offset =
      if origin + offset < size then origin + offset else origin + offset - size := by
  rw [place]
  split
  · rename_i low
    exact Nat.mod_eq_of_lt low
  · rename_i high
    rw [Nat.mod_eq_sub_mod (by omega), Nat.mod_eq_of_lt (by omega)]

theorem cyclicDist_lt {size : Nat} (positive : 0 < size) (origin target : Nat) :
    cyclicDist size origin target < size :=
  Nat.mod_lt _ positive

theorem cyclicDist_eq {size origin target : Nat} (inside : origin < size)
    (bound : target < size) :
    cyclicDist size origin target =
      if origin ≤ target then target - origin else target + size - origin := by
  rw [cyclicDist]
  split
  · rename_i ordered
    rw [Nat.mod_eq_sub_mod (by omega), Nat.mod_eq_of_lt (by omega)]
    omega
  · rename_i wraps
    rw [Nat.mod_eq_of_lt (by omega)]

@[simp]
theorem place_cyclicDist {size origin target : Nat} (inside : origin < size)
    (bound : target < size) :
    place size origin (cyclicDist size origin target) = target := by
  have close := cyclicDist_lt (by omega : 0 < size) origin target
  rw [place_eq inside close, cyclicDist_eq inside bound] at *
  split <;> split <;> omega

@[simp]
theorem cyclicDist_place {size origin offset : Nat} (inside : origin < size)
    (bound : offset < size) :
    cyclicDist size origin (place size origin offset) = offset := by
  rw [cyclicDist_eq inside (place_lt (by omega) _ _), place_eq inside bound]
  split <;> split <;> omega

theorem place_injective {size origin first second : Nat} (inside : origin < size)
    (firstBound : first < size) (secondBound : second < size)
    (same : place size origin first = place size origin second) : first = second := by
  have distances := congrArg (cyclicDist size origin) same
  rwa [cyclicDist_place inside firstBound, cyclicDist_place inside secondBound]
    at distances

/-- Offsets from a place are offsets from its origin. -/
theorem place_place {size origin first second : Nat} :
    place size (place size origin first) second =
      place size origin (first + second) := by
  simp [place, Nat.add_assoc]

/-- Between two places on one cut circle the distance is the difference. -/
theorem cyclicDist_places {size origin first second : Nat}
    (ordered : first ≤ second) (bound : second < size) :
    cyclicDist size (place size origin first) (place size origin second) =
      second - first := by
  have split : place size origin second =
      place size (place size origin first) (second - first) := by
    rw [place_place, Nat.add_sub_cancel' ordered]
  rw [split, cyclicDist_place (place_lt (by omega) _ _) (by omega)]

/-! ## Power-of-two sizes -/

/-- `std::bit_ceil`: the least power of two that is not below the argument. -/
def bitCeil (value : Nat) : Nat :=
  if value ≤ 1 then 1 else 2 ^ (Nat.log2 (value - 1) + 1)

theorem exists_bitCeil_eq_pow (value : Nat) : ∃ exponent, bitCeil value = 2 ^ exponent := by
  unfold bitCeil
  split
  · exact ⟨0, rfl⟩
  · exact ⟨_, rfl⟩

theorem le_bitCeil (value : Nat) : value ≤ bitCeil value := by
  unfold bitCeil
  split
  · assumption
  · have below := Nat.lt_log2_self (n := value - 1)
    omega

/-- Masking an index with a power of two less one is taking it modulo that
power, so the table's masked steps are steps modulo its size. -/
theorem and_mask_eq_mod (value index : Nat) :
    index &&& (bitCeil value - 1) = index % bitCeil value := by
  obtain ⟨exponent, pow⟩ := exists_bitCeil_eq_pow value
  rw [pow, Nat.and_two_pow_sub_one_eq_mod]

theorem bitCeil_pos (value : Nat) : 0 < bitCeil value := by
  obtain ⟨exponent, pow⟩ := exists_bitCeil_eq_pow value
  rw [pow]
  exact Nat.two_pow_pos exponent

namespace Table

variable {K V : Type} [DecidableEq K] [Inhabited K]

/-- Walk from an index to the first cell that holds `key` or is empty.  `none`
means that the walk did not end within `fuel` cells. -/
def probeFrom (table : Table K V) (key : K) : Nat → Nat → Option Nat
  | 0, _ => none
  | fuel + 1, index =>
      if (table.cells index).key = key ∨ (table.cells index).key = default then
        some index
      else
        table.probeFrom key fuel ((index + 1) % table.size)

/-- Walk from the key's home cell. -/
def probe (home : K → Nat) (table : Table K V) (key : K) : Option Nat :=
  table.probeFrom key table.size (home key)

/-- Overwrite one cell. -/
def set (table : Table K V) (index : Nat) (cell : Cell K V) : Table K V :=
  { table with cells := Function.update table.cells index cell }

/-- Look a key up; the outer `none` means that probing did not end. -/
def find? (home : K → Nat) (table : Table K V) (key : K) : Option (Option V) :=
  (table.probe home key).map fun index =>
    if (table.cells index).key = key then some (table.cells index).value else none

/-- Add or overwrite an entry; `none` means that probing did not end. -/
def insert (home : K → Nat) (table : Table K V) (key : K) (value : V) :
    Option (Table K V) :=
  (table.probe home key).map fun index => table.set index ⟨key, value⟩

omit [DecidableEq K] [Inhabited K] in
@[simp]
theorem set_size (table : Table K V) (index : Nat) (cell : Cell K V) :
    (table.set index cell).size = table.size :=
  rfl

omit [DecidableEq K] [Inhabited K] in
@[simp]
theorem set_cells_self (table : Table K V) (index : Nat) (cell : Cell K V) :
    (table.set index cell).cells index = cell := by
  simp [set]

omit [DecidableEq K] [Inhabited K] in
theorem set_cells_of_ne (table : Table K V) {index other : Nat} (cell : Cell K V)
    (different : other ≠ index) :
    (table.set index cell).cells other = table.cells other := by
  simp [set, different]

/-- The indices of the cells in use. -/
def occupied (table : Table K V) : Finset Nat :=
  (Finset.range table.size).filter fun index => (table.cells index).key ≠ default

@[simp]
theorem mem_occupied (table : Table K V) (index : Nat) :
    index ∈ table.occupied ↔
      index < table.size ∧ (table.cells index).key ≠ default := by
  simp [occupied]

/-- With fewer entries than cells some cell is empty. -/
theorem exists_vacant {table : Table K V} (room : table.occupied.card < table.size) :
    ∃ index < table.size, (table.cells index).key = default := by
  by_contra full
  push Not at full
  have all : table.occupied = Finset.range table.size := by
    ext index
    constructor
    · intro member
      exact Finset.mem_range.mpr ((mem_occupied table index).mp member).1
    · intro member
      have inside := Finset.mem_range.mp member
      exact (mem_occupied table index).mpr ⟨inside, full index inside⟩
  rw [all, Finset.card_range] at room
  exact lt_irrefl _ room

end Table

/-! ## The representation invariant -/

variable {K V : Type} [Inhabited K]

/-- Keys are stored once, and no empty cell lies between an entry's home and
the entry. -/
structure Valid (home : K → Nat) (table : Table K V) : Prop where
  home_lt : ∀ key, home key < table.size
  unique : ∀ {first second}, first < table.size → second < table.size →
    (table.cells first).key ≠ default →
    (table.cells first).key = (table.cells second).key → first = second
  path : ∀ {index}, index < table.size → (table.cells index).key ≠ default →
    ∀ offset < cyclicDist table.size (home (table.cells index).key) index,
      (table.cells (place table.size (home (table.cells index).key) offset)).key ≠
        default

/-- The same paths on the circle cut open at an empty cell. -/
def CutPaths (home : K → Nat) (table : Table K V) (vacant : Nat) : Prop :=
  ∀ offset < table.size, (table.cells (place table.size vacant offset)).key ≠ default →
    ∃ start ≤ offset,
      home (table.cells (place table.size vacant offset)).key =
        place table.size vacant start ∧
      ∀ between, start ≤ between → between < offset →
        (table.cells (place table.size vacant between)).key ≠ default

theorem Valid.size_pos {home : K → Nat} {table : Table K V}
    (valid : Valid home table) : 0 < table.size :=
  Nat.zero_lt_of_lt (valid.home_lt default)

/-- No path crosses an empty cell, so every path runs upwards from it. -/
theorem Valid.cutPaths {home : K → Nat} {table : Table K V}
    (valid : Valid home table) {vacant : Nat} (inside : vacant < table.size)
    (empty : (table.cells vacant).key = default) : CutPaths home table vacant := by
  intro offset bound used
  have positive := valid.size_pos
  set index := place table.size vacant offset with indexDef
  set key := (table.cells index).key with keyDef
  have indexInside : index < table.size := place_lt positive _ _
  have homeInside := valid.home_lt key
  set start := cyclicDist table.size vacant (home key) with startDef
  have startBound : start < table.size := cyclicDist_lt positive _ _
  have homeEq : home key = place table.size vacant start :=
    (place_cyclicDist inside homeInside).symm
  have ordered : start ≤ offset := by
    by_contra later
    push Not at later
    -- Walking from the home up to the cut would meet the empty cell.
    have wraps : cyclicDist table.size (home key) index =
        table.size - start + offset := by
      rw [homeEq, indexDef, cyclicDist_eq (place_lt positive _ _) (place_lt positive _ _),
        place_eq inside bound, place_eq inside startBound]
      split <;> split <;> split <;> omega
    have nonzero : offset ≠ 0 := by
      rintro rfl
      apply used
      rw [keyDef, indexDef, place_eq inside bound, if_pos (by omega), Nat.add_zero]
      exact empty
    apply valid.path indexInside used (table.size - start) (by rw [wraps]; omega)
    rw [homeEq, place_place, Nat.add_sub_cancel' (le_of_lt startBound), place,
      Nat.add_mod_right, Nat.mod_eq_of_lt inside]
    exact empty
  refine ⟨start, ordered, homeEq, ?_⟩
  intro between low high
  have distance : cyclicDist table.size (home key) index = offset - start := by
    rw [homeEq, indexDef, cyclicDist_places ordered bound]
  have clear := valid.path indexInside used (between - start) (by rw [distance]; omega)
  rwa [homeEq, place_place, Nat.add_sub_cancel' low] at clear

/-- Upward paths on a cut circle are valid cyclic paths. -/
theorem valid_of_cutPaths {home : K → Nat} {table : Table K V} {vacant : Nat}
    (homes : ∀ key, home key < table.size)
    (unique : ∀ {first second}, first < table.size → second < table.size →
      (table.cells first).key ≠ default →
      (table.cells first).key = (table.cells second).key → first = second)
    (inside : vacant < table.size) (paths : CutPaths home table vacant) :
    Valid home table where
  home_lt := homes
  unique := unique
  path := by
    intro index bound used offset before
    have indexEq := place_cyclicDist inside bound
    obtain ⟨start, ordered, homeEq, clear⟩ :=
      paths (cyclicDist table.size vacant index)
        (cyclicDist_lt (by omega) _ _) (by rwa [indexEq])
    rw [indexEq] at homeEq
    have distance : cyclicDist table.size (home (table.cells index).key) index =
        cyclicDist table.size vacant index - start := by
      conv_lhs => rw [homeEq]
      conv_lhs => arg 3; rw [← indexEq]
      exact cyclicDist_places ordered (cyclicDist_lt (by omega) _ _)
    rw [homeEq, place_place]
    exact clear (start + offset) (by omega) (by omega)

end DpdkWrapper.Probing
