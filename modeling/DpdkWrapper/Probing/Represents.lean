import DpdkWrapper.Probing.Table

/-!
# Lookup and insertion refine a finite map

A valid table with an empty cell ends every walk, and the walk for a key ends
at its entry exactly when the key is present.  Lookup and insertion therefore
agree with those of the finite map of the table's entries.
-/

namespace DpdkWrapper.Probing

variable {K V : Type} [DecidableEq K] [Inhabited K]

namespace Table

/-- The walk stops at the first cell with the key or no key. -/
theorem probeFrom_eq {table : Table K V} {key : K} {distance : Nat} :
    ∀ {fuel index : Nat}, index < table.size → distance < fuel →
      (∀ offset < distance,
        (table.cells (place table.size index offset)).key ≠ key ∧
          (table.cells (place table.size index offset)).key ≠ default) →
      ((table.cells (place table.size index distance)).key = key ∨
        (table.cells (place table.size index distance)).key = default) →
      table.probeFrom key fuel index = some (place table.size index distance) := by
  induction distance with
  | zero =>
      intro fuel index inside enough _ stop
      obtain ⟨fuel, rfl⟩ := Nat.exists_eq_succ_of_ne_zero (Nat.ne_of_gt enough)
      have here : place table.size index 0 = index := Nat.mod_eq_of_lt inside
      rw [here] at stop ⊢
      rw [probeFrom, if_pos stop]
  | succ distance ih =>
      intro fuel index inside enough passed stop
      obtain ⟨fuel, rfl⟩ := Nat.exists_eq_succ_of_ne_zero (Nat.ne_of_gt (Nat.zero_lt_of_lt enough))
      have here : place table.size index 0 = index := Nat.mod_eq_of_lt inside
      have first := passed 0 (Nat.succ_pos distance)
      rw [here] at first
      have continues : ¬ ((table.cells index).key = key ∨
          (table.cells index).key = default) := by
        rintro (same | empty)
        · exact first.1 same
        · exact first.2 empty
      have moved : ∀ offset, place table.size ((index + 1) % table.size) offset =
          place table.size index (offset + 1) := by
        intro offset
        rw [show (index + 1) % table.size = place table.size index 1 from rfl,
          place_place, Nat.add_comm]
      rw [probeFrom, if_neg continues]
      have next_lt : (index + 1) % table.size < table.size := Nat.mod_lt _ (by omega)
      have rest := @ih fuel _ next_lt (by omega)
        (by
          intro offset before
          rw [moved]
          exact passed (offset + 1) (by omega))
        (by rwa [moved])
      rw [rest, moved]

end Table

/-- With an empty cell on the circle, the walk from a key's home ends. -/
theorem Valid.probe_ends {home : K → Nat} {table : Table K V}
    (valid : Valid home table) (room : table.occupied.card < table.size) (key : K) :
    ∃ distance < table.size,
      table.probe home key = some (place table.size (home key) distance) ∧
      (∀ offset < distance,
        (table.cells (place table.size (home key) offset)).key ≠ key ∧
          (table.cells (place table.size (home key) offset)).key ≠ default) ∧
      ((table.cells (place table.size (home key) distance)).key = key ∨
        (table.cells (place table.size (home key) distance)).key = default) := by
  classical
  have homeInside := valid.home_lt key
  obtain ⟨vacant, vacantInside, empty⟩ := Table.exists_vacant room
  let Stops : Nat → Prop := fun offset =>
    (table.cells (place table.size (home key) offset)).key = key ∨
      (table.cells (place table.size (home key) offset)).key = default
  have stopsAtVacant : Stops (cyclicDist table.size (home key) vacant) := by
    right
    rw [place_cyclicDist homeInside vacantInside]
    exact empty
  have ends : ∃ offset, Stops offset := ⟨_, stopsAtVacant⟩
  have passed : ∀ offset < Nat.find ends, ¬ Stops offset :=
    fun offset before => Nat.find_min ends before
  have near : Nat.find ends < table.size :=
    lt_of_le_of_lt (Nat.find_min' ends stopsAtVacant)
      (cyclicDist_lt valid.size_pos _ vacant)
  have before : ∀ offset < Nat.find ends,
      (table.cells (place table.size (home key) offset)).key ≠ key ∧
        (table.cells (place table.size (home key) offset)).key ≠ default :=
    fun offset early => not_or.mp (passed offset early)
  exact ⟨Nat.find ends, near,
    Table.probeFrom_eq homeInside near before (Nat.find_spec ends), before, Nat.find_spec ends⟩

/-- The walk ends at the key's cell, or at an empty cell when the key is absent.
Every cell passed on the way is in use. -/
theorem Valid.probe_spec {home : K → Nat} {table : Table K V}
    (valid : Valid home table) (room : table.occupied.card < table.size)
    {key : K} (proper : key ≠ default) :
    ∃ index < table.size, table.probe home key = some index ∧
      (∀ offset < cyclicDist table.size (home key) index,
        (table.cells (place table.size (home key) offset)).key ≠ default) ∧
      ((table.cells index).key = key ∨
        (table.cells index).key = default ∧
          ∀ other < table.size, (table.cells other).key ≠ key) := by
  have positive := valid.size_pos
  have homeInside := valid.home_lt key
  obtain ⟨distance, near, probed, passed, stops⟩ := valid.probe_ends room key
  refine ⟨place table.size (home key) distance, place_lt positive _ _, probed, ?_, ?_⟩
  · intro offset before
    rw [cyclicDist_place homeInside near] at before
    exact (passed offset before).2
  · rcases stops with found | stopped
    · exact Or.inl found
    · refine Or.inr ⟨stopped, ?_⟩
      intro other otherInside same
      have used : (table.cells other).key ≠ default := by rwa [same]
      -- The key's own path is in use, so the walk cannot have stopped on it.
      have beyond : cyclicDist table.size (home key) other ≤ distance := by
        by_contra short
        push Not at short
        have clear := valid.path otherInside used distance (by rwa [same])
        rw [same] at clear
        exact clear stopped
      have reached : ¬ cyclicDist table.size (home key) other < distance := by
        intro before
        apply (passed _ before).1
        rw [place_cyclicDist homeInside otherInside]
        exact same
      have equal : cyclicDist table.size (home key) other = distance := by omega
      rw [← equal, place_cyclicDist homeInside otherInside, same] at stopped
      exact proper stopped

/-! ## Refinement of a finite map -/

/-- A valid table whose entries are those of a finite map. -/
structure Represents (home : K → Nat) (table : Table K V)
    (map : Finmap fun _ : K => V) : Prop where
  valid : Valid home table
  fresh : default ∉ map
  entry : ∀ {key}, key ≠ default → ∀ value,
    map.lookup key = some value ↔
      ∃ index < table.size, table.cells index = ⟨key, value⟩

namespace Represents

variable {home : K → Nat} {table : Table K V} {map : Finmap fun _ : K => V}

/-- A table without entries represents the empty map. -/
theorem of_vacant (homes : ∀ key, home key < table.size)
    (vacant : ∀ index, (table.cells index).key = default) : Represents home table ∅ where
  valid :=
    { home_lt := homes
      unique := fun _ _ used => absurd (vacant _) used
      path := fun _ used => absurd (vacant _) used }
  fresh := Finmap.notMem_empty
  entry := by
    intro key proper value
    rw [Finmap.lookup_empty]
    simp only [reduceCtorEq, false_iff]
    rintro ⟨index, _, cell⟩
    apply proper
    rw [← vacant index, cell]

/-- A stored key is a key of the map. -/
theorem mem_iff (represents : Represents home table map) {key : K}
    (proper : key ≠ default) :
    key ∈ map ↔ ∃ index < table.size, (table.cells index).key = key := by
  rw [← Finmap.lookup_isSome, Option.isSome_iff_exists]
  constructor
  · rintro ⟨value, looked⟩
    obtain ⟨index, inside, cell⟩ := (represents.entry proper value).mp looked
    exact ⟨index, inside, by rw [cell]⟩
  · rintro ⟨index, inside, same⟩
    refine ⟨(table.cells index).value, (represents.entry proper _).mpr ⟨index, inside, ?_⟩⟩
    rw [← same]

/-- Every entry of the map sits in its own cell. -/
theorem card_occupied (represents : Represents home table map) :
    table.occupied.card = map.keys.card := by
  apply Finset.card_bij fun index _ => (table.cells index).key
  · intro index member
    obtain ⟨inside, used⟩ := (Table.mem_occupied table index).mp member
    exact Finmap.mem_keys.mpr ((represents.mem_iff used).mpr ⟨index, inside, rfl⟩)
  · intro first firstMember second secondMember same
    obtain ⟨firstInside, used⟩ := (Table.mem_occupied table first).mp firstMember
    exact represents.valid.unique firstInside
      ((Table.mem_occupied table second).mp secondMember).1 used same
  · intro key member
    have proper : key ≠ default := by
      rintro rfl
      exact represents.fresh (Finmap.mem_keys.mp member)
    obtain ⟨index, inside, same⟩ :=
      (represents.mem_iff proper).mp (Finmap.mem_keys.mp member)
    refine ⟨index, (Table.mem_occupied table index).mpr ⟨inside, ?_⟩, same⟩
    rwa [same]

/-- Looking a key up ends and gives what the map gives. -/
theorem find? (represents : Represents home table map)
    (room : map.keys.card < table.size) {key : K} (proper : key ≠ default) :
    table.find? home key = some (map.lookup key) := by
  obtain ⟨index, inside, probed, _, outcome⟩ :=
    represents.valid.probe_spec (by rwa [represents.card_occupied]) proper
  rw [Table.find?, probed, Option.map_some, Option.some.injEq]
  rcases outcome with found | ⟨empty, absent⟩
  · rw [if_pos found]
    symm
    rw [represents.entry proper]
    exact ⟨index, inside, by rw [← found]⟩
  · rw [if_neg (by rw [empty]; exact proper.symm)]
    symm
    rw [Finmap.lookup_eq_none, represents.mem_iff proper]
    rintro ⟨other, otherInside, same⟩
    exact absent other otherInside same

/-- Insertion ends and gives the table of the map with the entry added. -/
theorem insert (represents : Represents home table map) {key : K}
    (proper : key ≠ default) (value : V) (room : map.keys.card < table.size) :
    ∃ after, table.insert home key value = some after ∧
      after.size = table.size ∧ Represents home after (map.insert key value) := by
  obtain ⟨index, inside, probed, passed, outcome⟩ :=
    represents.valid.probe_spec (by rwa [represents.card_occupied]) proper
  have others : ∀ other < table.size, other ≠ index →
      (table.cells other).key ≠ key := by
    intro other otherInside different same
    rcases outcome with found | ⟨_, absent⟩
    · exact different (represents.valid.unique otherInside inside
        (by rwa [same]) (same.trans found.symm))
    · exact absent other otherInside same
  refine ⟨table.set index ⟨key, value⟩, by rw [Table.insert, probed, Option.map_some],
    rfl, ?_⟩
  constructor
  · constructor
    · exact represents.valid.home_lt
    · intro first second firstInside secondInside used same
      by_cases firstHere : first = index
      · by_cases secondHere : second = index
        · rw [firstHere, secondHere]
        · rw [firstHere, Table.set_cells_self,
            Table.set_cells_of_ne _ _ secondHere] at same
          exact absurd same.symm (others second secondInside secondHere)
      · rw [Table.set_cells_of_ne _ _ firstHere] at used same
        by_cases secondHere : second = index
        · rw [secondHere, Table.set_cells_self] at same
          exact absurd same (others first firstInside firstHere)
        · rw [Table.set_cells_of_ne _ _ secondHere] at same
          exact represents.valid.unique firstInside secondInside used same
    · intro other otherInside used offset before
      -- Cells only become used, so old paths stay clear.
      have filled : ∀ position, (table.cells position).key ≠ default →
          ((table.set index ⟨key, value⟩).cells position).key ≠ default := by
        intro position positionUsed
        by_cases here : position = index
        · rwa [here, Table.set_cells_self]
        · rwa [Table.set_cells_of_ne _ _ here]
      by_cases here : other = index
      · subst other
        rw [Table.set_cells_self] at before ⊢
        exact filled _ (passed offset before)
      · rw [Table.set_cells_of_ne _ _ here] at before used ⊢
        exact filled _ (represents.valid.path otherInside used offset before)
  · rw [Finmap.mem_insert]
    rintro (same | member)
    · exact proper same.symm
    · exact represents.fresh member
  · intro query queryProper found
    by_cases same : query = key
    · subst query
      rw [Finmap.lookup_insert]
      constructor
      · intro equal
        refine ⟨index, inside, ?_⟩
        rw [Table.set_cells_self, Option.some.inj equal]
      · rintro ⟨position, positionInside, cell⟩
        by_cases here : position = index
        · rw [here, Table.set_cells_self] at cell
          exact congrArg some (congrArg Cell.value cell)
        · rw [Table.set_cells_of_ne _ _ here] at cell
          exact absurd (congrArg Cell.key cell) (others position positionInside here)
    · rw [Finmap.lookup_insert_of_ne _ same, represents.entry queryProper]
      constructor
      · rintro ⟨position, positionInside, cell⟩
        have elsewhere : position ≠ index := by
          rintro rfl
          rcases outcome with held | ⟨empty, _⟩
          · rw [cell] at held
            exact same held
          · rw [cell] at empty
            exact queryProper empty
        exact ⟨position, positionInside, by
          rwa [Table.set_cells_of_ne _ _ elsewhere]⟩
      · rintro ⟨position, positionInside, cell⟩
        by_cases here : position = index
        · rw [here, Table.set_cells_self] at cell
          exact absurd (congrArg Cell.key cell).symm same
        · rw [Table.set_cells_of_ne _ _ here] at cell
          exact ⟨position, positionInside, cell⟩

end Represents

end DpdkWrapper.Probing
