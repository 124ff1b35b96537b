import DpdkWrapper.Probing.Represents

/-!
# Backward-shift deletion

Deleting an entry leaves a hole in its probe run.  The run behind the hole is
scanned up to the next empty cell; an entry whose path passes the hole is moved
into it, which moves the hole.  While the hole is open its cell still holds a
stale entry, so no path is ever interrupted; what the invariant below tracks is
which entries have a path through the hole.
-/

namespace DpdkWrapper.Probing

variable {K V : Type} [DecidableEq K] [Inhabited K] [Inhabited V]

/-- An entry at `index` with home `start` does not reach back over the hole:
its home lies cyclically after `hole` and no later than `index`. -/
def stays (hole index start : Nat) : Bool :=
  if hole ≤ index then decide (hole < start) && decide (start ≤ index)
  else decide (hole < start) || decide (start ≤ index)

namespace Table

/-- Scan the run behind the hole, pulling entries forward, and empty the cell
where the hole ends up.  `none` means that the scan did not end. -/
def shift (home : K → Nat) : Nat → Table K V → Nat → Nat → Option (Table K V)
  | 0, _, _, _ => none
  | fuel + 1, table, hole, index =>
      if (table.cells index).key = default then
        some (table.set hole default)
      else if stays hole index (home (table.cells index).key) then
        shift home fuel table hole ((index + 1) % table.size)
      else
        shift home fuel (table.set hole (table.cells index)) index
          ((index + 1) % table.size)

/-- Delete a key's entry if there is one; `none` means that a loop did not
end. -/
def erase (home : K → Nat) (table : Table K V) (key : K) : Option (Table K V) :=
  (table.probe home key).bind fun index =>
    if (table.cells index).key = key then
      table.shift home table.size index ((index + 1) % table.size)
    else
      some table

end Table

/-- On the circle cut at `vacant`, `stays` compares the home with the hole. -/
theorem stays_place_iff {size vacant hole index start : Nat} (inside : vacant < size)
    (behind : hole < index) (bound : index < size) (path : start ≤ index) :
    stays (place size vacant hole) (place size vacant index)
      (place size vacant start) ↔ hole < start := by
  rw [stays, place_eq inside (by omega : hole < size), place_eq inside bound,
    place_eq inside (by omega : start < size)]
  split <;> split <;> split <;> split <;>
    simp only [Bool.and_eq_true, Bool.or_eq_true, decide_eq_true_eq] <;> omega

/-- The state of a deletion on the circle cut at `vacant`: the stale entry at
`hole` aside, the table holds the remaining entries, all paths are in use, and
every entry strictly between the hole and `index` has its home behind the
hole. -/
structure Shifting (home : K → Nat) (table : Table K V) (vacant hole index : Nat)
    (map : Finmap fun _ : K => V) : Prop where
  home_lt : ∀ key, home key < table.size
  vacant_lt : vacant < table.size
  empty : (table.cells vacant).key = default
  hole_pos : 0 < hole
  behind : hole < index
  bound : index ≤ table.size
  stale : (table.cells (place table.size vacant hole)).key ≠ default
  unique : ∀ {first second}, first < table.size → second < table.size →
    first ≠ hole → second ≠ hole →
    (table.cells (place table.size vacant first)).key ≠ default →
    (table.cells (place table.size vacant first)).key =
      (table.cells (place table.size vacant second)).key → first = second
  paths : ∀ offset < table.size, offset ≠ hole →
    (table.cells (place table.size vacant offset)).key ≠ default →
    ∃ start ≤ offset,
      home (table.cells (place table.size vacant offset)).key =
        place table.size vacant start ∧
      ∀ between, start ≤ between → between < offset →
        (table.cells (place table.size vacant between)).key ≠ default
  scanned : ∀ offset, hole < offset → offset < index →
    ∀ start < table.size, home (table.cells (place table.size vacant offset)).key =
      place table.size vacant start → hole < start
  fresh : default ∉ map
  entry : ∀ {key}, key ≠ default → ∀ value,
    map.lookup key = some value ↔
      ∃ offset < table.size, offset ≠ hole ∧
        table.cells (place table.size vacant offset) = ⟨key, value⟩

namespace Shifting

variable {home : K → Nat} {table : Table K V} {vacant hole index : Nat}
  {map : Finmap fun _ : K => V}

omit [Inhabited V] in
/-- Different offsets are different cells. -/
theorem place_ne (shifting : Shifting home table vacant hole index map)
    {first second : Nat} (firstBound : first < table.size)
    (secondBound : second < table.size) (different : first ≠ second) :
    place table.size vacant first ≠ place table.size vacant second :=
  fun same => different (place_injective shifting.vacant_lt firstBound secondBound same)

omit [Inhabited V] in
/-- An entry that stays extends the scanned stretch. -/
theorem keep (shifting : Shifting home table vacant hole index map)
    (inside : index < table.size)
    (keeps : stays (place table.size vacant hole) (place table.size vacant index)
      (home (table.cells (place table.size vacant index)).key))
    (used : (table.cells (place table.size vacant index)).key ≠ default) :
    Shifting home table vacant hole (index + 1) map :=
  { shifting with
    behind := Nat.lt_succ_of_lt shifting.behind
    bound := inside
    scanned := by
      intro offset low high start startBound homeEq
      rcases Nat.lt_or_ge offset index with before | here
      · exact shifting.scanned offset low before start startBound homeEq
      · have same : offset = index := by omega
        subst same
        obtain ⟨actual, ordered, actualEq, _⟩ :=
          shifting.paths offset inside (by omega) used
        have startEq : start = actual :=
          place_injective shifting.vacant_lt startBound (by omega)
            (homeEq.symm.trans actualEq)
        rw [homeEq, startEq] at keeps
        rw [startEq]
        exact (stays_place_iff shifting.vacant_lt low inside ordered).mp keeps }

omit [Inhabited V] in
/-- An entry whose path passes the hole moves into it, and leaves the next
hole behind. -/
theorem move (shifting : Shifting home table vacant hole index map)
    (inside : index < table.size)
    (moves : ¬ stays (place table.size vacant hole) (place table.size vacant index)
      (home (table.cells (place table.size vacant index)).key))
    (used : (table.cells (place table.size vacant index)).key ≠ default) :
    Shifting home
      (table.set (place table.size vacant hole)
        (table.cells (place table.size vacant index)))
      vacant index (index + 1) map := by
  have holeInside : hole < table.size := lt_trans shifting.behind inside
  have indexHole : index ≠ hole := Nat.ne_of_gt shifting.behind
  have elsewhere : ∀ {offset}, offset < table.size → offset ≠ hole →
      (table.set (place table.size vacant hole)
        (table.cells (place table.size vacant index))).cells
          (place table.size vacant offset) =
        table.cells (place table.size vacant offset) := by
    intro offset offsetInside different
    exact Table.set_cells_of_ne _ _
      (shifting.place_ne offsetInside holeInside different)
  -- The hole was in use before and is in use now.
  have sameUse : ∀ {offset}, offset < table.size →
      (table.cells (place table.size vacant offset)).key ≠ default →
      ((table.set (place table.size vacant hole)
        (table.cells (place table.size vacant index))).cells
          (place table.size vacant offset)).key ≠ default := by
    intro offset offsetInside offsetUsed
    by_cases here : offset = hole
    · rw [here, Table.set_cells_self]
      exact used
    · rw [elsewhere offsetInside here]
      exact offsetUsed
  obtain ⟨start, ordered, homeEq, clear⟩ := shifting.paths index inside indexHole used
  have reaches : start ≤ hole := by
    by_contra later
    apply moves
    rw [homeEq, stays_place_iff shifting.vacant_lt shifting.behind inside ordered]
    omega
  constructor
  · exact shifting.home_lt
  · exact shifting.vacant_lt
  · have cutElsewhere : vacant ≠ place table.size vacant hole := by
      rw [place_eq shifting.vacant_lt holeInside]
      have positive := shifting.hole_pos
      split <;> omega
    rw [Table.set_cells_of_ne _ _ cutElsewhere]
    exact shifting.empty
  · exact Nat.zero_lt_of_lt shifting.behind
  · exact Nat.lt_succ_self index
  · exact inside
  · change ((table.set _ _).cells (place table.size vacant index)).key ≠ default
    rw [elsewhere inside indexHole]
    exact used
  · intro first second firstInside secondInside firstIndex secondIndex firstUsed same
    simp only [Table.set_size] at firstUsed same
    by_cases firstHole : first = hole
    · by_cases secondHole : second = hole
      · rw [firstHole, secondHole]
      · rw [firstHole, Table.set_cells_self, elsewhere secondInside secondHole] at same
        exact absurd
          (shifting.unique inside secondInside indexHole secondHole used same).symm
          secondIndex
    · rw [elsewhere firstInside firstHole] at firstUsed same
      by_cases secondHole : second = hole
      · rw [secondHole, Table.set_cells_self] at same
        exact absurd
          (shifting.unique firstInside inside firstHole indexHole firstUsed same)
          firstIndex
      · rw [elsewhere secondInside secondHole] at same
        exact shifting.unique firstInside secondInside firstHole secondHole firstUsed same
  · intro offset offsetInside offsetIndex offsetUsed
    simp only [Table.set_size] at offsetUsed ⊢
    by_cases offsetHole : offset = hole
    · rw [offsetHole, Table.set_cells_self]
      refine ⟨start, reaches, homeEq, ?_⟩
      intro between low high
      exact sameUse (by omega) (clear between low (lt_trans high shifting.behind))
    · rw [elsewhere offsetInside offsetHole] at offsetUsed ⊢
      obtain ⟨first, firstOrdered, firstHome, firstClear⟩ :=
        shifting.paths offset offsetInside offsetHole offsetUsed
      refine ⟨first, firstOrdered, firstHome, ?_⟩
      intro between low high
      exact sameUse (lt_trans high offsetInside) (firstClear between low high)
  · intro offset low high
    omega
  · exact shifting.fresh
  · intro key proper value
    rw [shifting.entry proper]
    simp only [Table.set_size]
    constructor
    · rintro ⟨offset, offsetInside, offsetHole, cell⟩
      by_cases offsetIndex : offset = index
      · refine ⟨hole, holeInside, indexHole.symm, ?_⟩
        rw [Table.set_cells_self, ← offsetIndex]
        exact cell
      · exact ⟨offset, offsetInside, offsetIndex, by rwa [elsewhere offsetInside offsetHole]⟩
    · rintro ⟨offset, offsetInside, offsetIndex, cell⟩
      by_cases offsetHole : offset = hole
      · rw [offsetHole, Table.set_cells_self] at cell
        exact ⟨index, inside, indexHole, cell⟩
      · rw [elsewhere offsetInside offsetHole] at cell
        exact ⟨offset, offsetInside, offsetHole, cell⟩

/-- Behind the scanned stretch comes an empty cell: emptying the hole cuts no
path. -/
theorem finish (shifting : Shifting home table vacant hole index map)
    (stopped : (table.cells (place table.size vacant index)).key = default) :
    Represents home (table.set (place table.size vacant hole) default) map := by
  have holeInside : hole < table.size :=
    lt_of_lt_of_le shifting.behind shifting.bound
  have elsewhere : ∀ {offset}, offset < table.size → offset ≠ hole →
      (table.set (place table.size vacant hole) default).cells
          (place table.size vacant offset) =
        table.cells (place table.size vacant offset) := by
    intro offset offsetInside different
    exact Table.set_cells_of_ne _ _
      (shifting.place_ne offsetInside holeInside different)
  have usedElsewhere : ∀ {offset}, offset < table.size →
      ((table.set (place table.size vacant hole) default).cells
          (place table.size vacant offset)).key ≠ default → offset ≠ hole := by
    rintro offset _ used rfl
    rw [Table.set_cells_self] at used
    exact used rfl
  have positive : 0 < table.size := Nat.zero_lt_of_lt shifting.vacant_lt
  have asPlace : ∀ {position}, position < table.size →
      position = place table.size vacant (cyclicDist table.size vacant position) :=
    fun bound => (place_cyclicDist shifting.vacant_lt bound).symm
  constructor
  · refine valid_of_cutPaths shifting.home_lt ?_ shifting.vacant_lt ?_
    · intro first second firstBound secondBound used same
      simp only [Table.set_size] at firstBound secondBound
      have firstInside := cyclicDist_lt positive vacant first
      have secondInside := cyclicDist_lt positive vacant second
      rw [asPlace firstBound] at used same
      rw [asPlace secondBound] at same
      have firstHole := usedElsewhere firstInside used
      have secondHole := usedElsewhere secondInside (by rwa [same] at used)
      rw [elsewhere firstInside firstHole] at used same
      rw [elsewhere secondInside secondHole] at same
      rw [asPlace firstBound, asPlace secondBound,
        shifting.unique firstInside secondInside firstHole secondHole used same]
    · intro offset offsetInside used
      simp only [Table.set_size] at offsetInside used ⊢
      have offsetHole := usedElsewhere offsetInside used
      rw [elsewhere offsetInside offsetHole] at used ⊢
      obtain ⟨start, ordered, homeEq, clear⟩ :=
        shifting.paths offset offsetInside offsetHole used
      refine ⟨start, ordered, homeEq, ?_⟩
      intro between low high
      have betweenHole : between ≠ hole := by
        rintro rfl
        -- The path would pass the hole: either its entry was scanned and found
        -- to start behind the hole, or the path also passes the empty cell.
        rcases Nat.lt_or_ge offset index with scannedHere | beyond
        · have starts := shifting.scanned offset high scannedHere start (by omega) homeEq
          omega
        · rcases Nat.lt_or_ge index offset with past | here
          · exact clear index (by have := shifting.behind; omega) past stopped
          · have same : offset = index := by omega
            rw [same] at used
            exact used stopped
      rw [elsewhere (lt_trans high offsetInside) betweenHole]
      exact clear between low high
  · exact shifting.fresh
  · intro key proper value
    rw [shifting.entry proper]
    simp only [Table.set_size]
    constructor
    · rintro ⟨offset, offsetInside, offsetHole, cell⟩
      exact ⟨place table.size vacant offset, place_lt positive _ _, by
        rwa [elsewhere offsetInside offsetHole]⟩
    · rintro ⟨position, bound, cell⟩
      have offsetInside := cyclicDist_lt positive vacant position
      rw [asPlace bound] at cell
      have offsetHole := usedElsewhere offsetInside (by rw [cell]; exact proper)
      rw [elsewhere offsetInside offsetHole] at cell
      exact ⟨_, offsetInside, offsetHole, cell⟩

/-- The scan ends at the cut at the latest, and leaves a valid table. -/
theorem shift_spec : ∀ (fuel : Nat) {table : Table K V} {hole index : Nat},
    Shifting home table vacant hole index map → table.size < fuel + index →
    ∃ after, table.shift home fuel (place table.size vacant hole)
        (place table.size vacant index) = some after ∧
      after.size = table.size ∧ Represents home after map := by
  intro fuel
  induction fuel with
  | zero =>
      intro table hole index shifting enough
      have bound := shifting.bound
      omega
  | succ fuel ih =>
      intro table hole index shifting enough
      have advance : (place table.size vacant index + 1) % table.size =
          place table.size vacant (index + 1) := by
        simp [place, Nat.add_assoc]
      rw [Table.shift]
      by_cases stopped : (table.cells (place table.size vacant index)).key = default
      · rw [if_pos stopped]
        exact ⟨_, rfl, rfl, shifting.finish stopped⟩
      · rw [if_neg stopped]
        have inside : index < table.size := by
          rcases Nat.lt_or_ge index table.size with inside | past
          · exact inside
          · exfalso
            have same : index = table.size := le_antisymm shifting.bound past
            apply stopped
            rw [same, place, Nat.add_mod_right, Nat.mod_eq_of_lt shifting.vacant_lt]
            exact shifting.empty
        by_cases keeps : stays (place table.size vacant hole)
            (place table.size vacant index)
            (home (table.cells (place table.size vacant index)).key)
        · rw [if_pos keeps, advance]
          exact ih (shifting.keep inside keeps stopped) (by omega)
        · rw [if_neg keeps, advance]
          exact ih (shifting.move inside keeps stopped) (by
            rw [Table.set_size]
            omega)

end Shifting

namespace Represents

variable {home : K → Nat} {table : Table K V} {map : Finmap fun _ : K => V}

omit [Inhabited V] in
/-- A freshly found entry opens the hole. -/
theorem shifting (represents : Represents home table map) {key : K} {vacant index : Nat}
    (vacantInside : vacant < table.size) (empty : (table.cells vacant).key = default)
    (inside : index < table.size) (found : (table.cells index).key = key)
    (proper : key ≠ default) :
    Shifting home table vacant (cyclicDist table.size vacant index)
      (cyclicDist table.size vacant index + 1) (map.erase key) := by
  have positive := represents.valid.size_pos
  have indexEq := place_cyclicDist vacantInside inside
  have cut := represents.valid.cutPaths vacantInside empty
  constructor
  · exact represents.valid.home_lt
  · exact vacantInside
  · exact empty
  · rw [Nat.pos_iff_ne_zero]
    intro zero
    rw [zero, place, Nat.add_zero, Nat.mod_eq_of_lt vacantInside] at indexEq
    rw [← indexEq, empty] at found
    exact proper found.symm
  · exact Nat.lt_succ_self _
  · exact cyclicDist_lt positive _ _
  · rw [indexEq, found]
    exact proper
  · intro first second firstInside secondInside _ _ used same
    exact place_injective vacantInside firstInside secondInside
      (represents.valid.unique (place_lt positive _ _) (place_lt positive _ _) used same)
  · intro offset offsetInside _ used
    exact cut offset offsetInside used
  · intro offset low high
    omega
  · rw [Finmap.mem_erase]
    exact fun member => represents.fresh member.2
  · intro query queryProper value
    by_cases same : query = key
    · subst query
      rw [Finmap.lookup_erase]
      simp only [reduceCtorEq, false_iff]
      rintro ⟨offset, offsetInside, offsetHole, cell⟩
      apply offsetHole
      apply place_injective vacantInside offsetInside (cyclicDist_lt positive _ _)
      rw [indexEq]
      exact represents.valid.unique (place_lt positive _ _) inside
        (by rw [cell]; exact queryProper) (by rw [cell, found])
    · rw [Finmap.lookup_erase_ne same, represents.entry queryProper]
      constructor
      · rintro ⟨position, bound, cell⟩
        refine ⟨cyclicDist table.size vacant position, cyclicDist_lt positive _ _, ?_, ?_⟩
        · intro hole
          apply same
          have here : position = index := by
            rw [← place_cyclicDist vacantInside bound, hole, indexEq]
          rw [here] at cell
          rw [cell] at found
          exact found
        · rw [place_cyclicDist vacantInside bound]
          exact cell
      · rintro ⟨offset, _, _, cell⟩
        exact ⟨_, place_lt positive _ _, cell⟩

/-- Deletion ends and gives the table of the map without the key. -/
theorem erase (represents : Represents home table map)
    (room : map.keys.card < table.size) {key : K} (proper : key ≠ default) :
    ∃ after, table.erase home key = some after ∧
      after.size = table.size ∧ Represents home after (map.erase key) := by
  have space : table.occupied.card < table.size := by
    rwa [represents.card_occupied]
  obtain ⟨index, inside, probed, _, outcome⟩ := represents.valid.probe_spec space proper
  rw [Table.erase, probed, Option.bind_some]
  rcases outcome with found | ⟨empty, absent⟩
  · rw [if_pos found]
    obtain ⟨vacant, vacantInside, cut⟩ := Table.exists_vacant space
    have opened := represents.shifting vacantInside cut inside found proper
    have indexEq := place_cyclicDist vacantInside inside
    obtain ⟨after, shifted, sameSize, valid⟩ :=
      Shifting.shift_spec table.size opened (by omega)
    have next : (index + 1) % table.size =
        place table.size vacant (cyclicDist table.size vacant index + 1) := by
      conv_lhs => rw [← indexEq]
      simp [place, Nat.add_assoc]
    rw [indexEq, ← next] at shifted
    exact ⟨after, shifted, sameSize, valid⟩
  · rw [if_neg (by rw [empty]; exact proper.symm)]
    refine ⟨table, rfl, rfl, represents.valid, ?_, ?_⟩
    · rw [Finmap.mem_erase]
      exact fun member => represents.fresh member.2
    · intro query queryProper value
      rw [← represents.entry queryProper]
      by_cases same : query = key
      · subst query
        rw [Finmap.lookup_erase, Finmap.lookup_eq_none.mpr]
        rw [represents.mem_iff queryProper]
        rintro ⟨other, otherInside, held⟩
        exact absent other otherInside held
      · rw [Finmap.lookup_erase_ne same]

end Represents

end DpdkWrapper.Probing
