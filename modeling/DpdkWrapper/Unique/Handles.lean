import Mathlib.Logic.Function.Basic
import Mathlib.Data.List.Nodup

/-!
# Move-only handles

A handle is a place in memory with a pointer to a resource, or with null.  Moving a handle
passes the pointer on, and destroying it gives the resource back.  Between two handles a
pointer may stand in a local variable: it is in transit.  `Sole` says that every resource
that has been handed out is in one handle or in transit, and that no resource has been given
back that was not handed out.
-/

namespace DpdkWrapper.Unique

/-- The handles at places `P` and which resources `R` are handed out.  `misuse` has the
resources that were given back although they were not. -/
structure Handles (P R : Type) where
  cell : P → Option R
  owned : R → Bool
  misuse : List R

namespace Handles

variable {P R : Type} [DecidableEq P] [DecidableEq R]

/-- No handle and no resource in use. -/
def empty (P R : Type) : Handles P R :=
  ⟨fun _ => none, fun _ => false, []⟩

/-- A store of a pointer. -/
def put (place : P) (value : Option R) (handles : Handles P R) : Handles P R :=
  { handles with cell := Function.update handles.cell place value }

def handOut (resource : R) (handles : Handles P R) : Handles P R :=
  { handles with owned := Function.update handles.owned resource true }

def giveBack (resource : R) (handles : Handles P R) : Handles P R :=
  if handles.owned resource then
    { handles with owned := Function.update handles.owned resource false }
  else
    { handles with misuse := resource :: handles.misuse }

/-- Give back what the handle holds, if it holds anything. -/
def giveBackAt (place : P) (handles : Handles P R) : Handles P R :=
  match handles.cell place with
  | some resource => handles.giveBack resource
  | none => handles

/-- The end of a handle's life. -/
def destroy (place : P) (handles : Handles P R) : Handles P R :=
  (handles.giveBackAt place).put place none

/-- Construction of a handle from another one. -/
def moveConstruct (target source : P) (handles : Handles P R) : Handles P R :=
  (handles.put target (handles.cell source)).put source none

/-- Assignment to a handle from another one. -/
def moveAssign (target source : P) (handles : Handles P R) : Handles P R :=
  if target = source then
    handles
  else
    ((handles.giveBackAt target).put target (handles.cell source)).put source none

section Stores

omit [DecidableEq R]

@[simp]
theorem cell_put (place : P) (value : Option R) (handles : Handles P R) :
    (handles.put place value).cell = Function.update handles.cell place value :=
  rfl

@[simp]
theorem owned_put (place : P) (value : Option R) (handles : Handles P R) :
    (handles.put place value).owned = handles.owned :=
  rfl

theorem put_put_self (place : P) (first second : Option R) (handles : Handles P R) :
    (handles.put place first).put place second = handles.put place second := by
  unfold put
  rw [Function.update_idem]

theorem put_comm {place other : P} (different : place ≠ other) (first second : Option R)
    (handles : Handles P R) :
    (handles.put place first).put other second = (handles.put other second).put place first := by
  unfold put
  rw [Function.update_comm different]

theorem put_cell (place : P) (handles : Handles P R) :
    handles.put place (handles.cell place) = handles := by
  unfold put
  rw [Function.update_eq_self]

end Stores

section Stock

omit [DecidableEq P]

variable (resource : R) (handles : Handles P R)

@[simp]
theorem cell_handOut : (handles.handOut resource).cell = handles.cell :=
  rfl

@[simp]
theorem owned_handOut :
    (handles.handOut resource).owned = Function.update handles.owned resource true :=
  rfl

@[simp]
theorem cell_giveBack : (handles.giveBack resource).cell = handles.cell := by
  unfold giveBack
  split <;> rfl

@[simp]
theorem owned_giveBack :
    (handles.giveBack resource).owned = Function.update handles.owned resource false := by
  unfold giveBack
  split
  · rfl
  · rename_i stock
    rw [Bool.not_eq_true] at stock
    exact (Function.update_eq_self_iff.mpr stock.symm).symm

@[simp]
theorem cell_giveBackAt (place : P) : (handles.giveBackAt place).cell = handles.cell := by
  unfold giveBackAt
  split
  · exact cell_giveBack _ _
  · rfl

/-- Nothing is handed out by giving back. -/
theorem owned_of_giveBackAt {place : P} {handles : Handles P R} {resource : R}
    (still : (handles.giveBackAt place).owned resource = true) : handles.owned resource = true := by
  unfold giveBackAt at still
  split at still
  · rename_i given _
    rw [owned_giveBack] at still
    by_cases same : resource = given
    · rw [same, Function.update_self] at still
      cases still
    · rwa [Function.update_of_ne same] at still
  · exact still

end Stock

@[simp]
theorem cell_destroy (place : P) (handles : Handles P R) :
    (handles.destroy place).cell = Function.update handles.cell place none := by
  rw [destroy, cell_put, cell_giveBackAt]

omit [DecidableEq R] in
@[simp]
theorem cell_moveConstruct (target source : P) (handles : Handles P R) :
    (handles.moveConstruct target source).cell = Function.update
      (Function.update handles.cell target (handles.cell source)) source none :=
  rfl

theorem cell_moveAssign (target source : P) (handles : Handles P R) :
    (handles.moveAssign target source).cell =
      if target = source then handles.cell
      else Function.update (Function.update handles.cell target (handles.cell source)) source
        none := by
  unfold moveAssign
  split
  · rfl
  · rw [cell_put, cell_put, cell_giveBackAt]

theorem owned_of_moveAssign {target source : P} {handles : Handles P R} {resource : R}
    (still : (handles.moveAssign target source).owned resource = true) :
    handles.owned resource = true := by
  unfold moveAssign at still
  split at still
  · exact still
  · exact owned_of_giveBackAt still

/-- Stores and what becomes of resources are independent of each other. -/
theorem put_giveBack (place : P) (value : Option R) (resource : R) (handles : Handles P R) :
    (handles.giveBack resource).put place value = (handles.put place value).giveBack resource := by
  unfold giveBack
  rw [owned_put]
  split <;> rfl

/-! ## One owner -/

/-- Every resource that is handed out is in one handle or in transit, and nothing else is. -/
structure Sole (transit : List R) (handles : Handles P R) : Prop where
  sole : ∀ place other resource, handles.cell place = some resource →
    handles.cell other = some resource → place = other
  held : ∀ resource, handles.owned resource = true ↔
    (∃ place, handles.cell place = some resource) ∨ resource ∈ transit
  apart : ∀ place resource, handles.cell place = some resource → resource ∉ transit
  nodup : transit.Nodup
  proper : handles.misuse = []

omit [DecidableEq P] [DecidableEq R] in
theorem sole_empty : Sole [] (empty P R) where
  sole _ _ _ found := by cases found
  held _ := by
    constructor
    · rintro ⟨⟩
    · rintro (⟨_, ⟨⟩⟩ | member)
      cases member
  apart _ _ found := by cases found
  nodup := List.nodup_nil
  proper := rfl

namespace Sole

variable {handles : Handles P R} {transit : List R} {place : P} {resource : R}

omit [DecidableEq P] [DecidableEq R] in
theorem perm (sole : Sole transit handles) {others : List R} (same : transit.Perm others) :
    Sole others handles where
  sole := sole.sole
  held other := by rw [sole.held, same.mem_iff]
  apart spot other found := by
    rw [← same.mem_iff]
    exact sole.apart spot other found
  nodup := same.nodup_iff.mp sole.nodup
  proper := sole.proper

omit [DecidableEq P] in
/-- A resource leaves the stock. -/
theorem handOut (sole : Sole transit handles) (stock : handles.owned resource = false) :
    Sole (resource :: transit) (handles.handOut resource) := by
  have idle : ¬((∃ place, handles.cell place = some resource) ∨ resource ∈ transit) := by
    rw [← sole.held, stock]
    exact Bool.false_ne_true
  constructor
  case sole => exact sole.sole
  case held =>
    intro other
    rw [owned_handOut, cell_handOut, List.mem_cons]
    by_cases same : other = resource
    · rw [same, Function.update_self]
      exact ⟨fun _ => Or.inr (Or.inl rfl), fun _ => rfl⟩
    · rw [Function.update_of_ne same, sole.held, or_iff_right same]
  case apart =>
    intro spot other found member
    rw [cell_handOut] at found
    rcases List.mem_cons.mp member with rfl | rest
    · exact idle (Or.inl ⟨spot, found⟩)
    · exact sole.apart spot other found rest
  case nodup => exact List.nodup_cons.mpr ⟨fun member => idle (Or.inr member), sole.nodup⟩
  case proper => exact sole.proper

omit [DecidableEq R] in
/-- A pointer in transit comes to rest in a vacant handle. -/
theorem put (sole : Sole (resource :: transit) handles) (vacant : handles.cell place = none) :
    Sole transit (handles.put place (some resource)) := by
  have fresh := (List.nodup_cons.mp sole.nodup).1
  have nowhere : ∀ other, handles.cell other ≠ some resource := fun other found =>
    sole.apart other resource found List.mem_cons_self
  have cell : ∀ other found, (handles.put place (some resource)).cell other = some found ↔
      (other = place ∧ found = resource) ∨ handles.cell other = some found := by
    intro other found
    rw [cell_put]
    by_cases same : other = place
    · rw [same, Function.update_self, vacant, Option.some.injEq]
      simp [eq_comm]
    · rw [Function.update_of_ne same]
      simp [same]
  constructor
  case sole =>
    intro first second found here there
    rcases (cell _ _).mp here with ⟨rfl, rfl⟩ | before
    · rcases (cell _ _).mp there with ⟨rfl, _⟩ | before'
      · rfl
      · exact absurd before' (nowhere second)
    · rcases (cell _ _).mp there with ⟨_, rfl⟩ | before'
      · exact absurd before (nowhere first)
      · exact sole.sole first second found before before'
  case held =>
    intro other
    rw [owned_put, sole.held, List.mem_cons]
    constructor
    · rintro (⟨spot, found⟩ | rfl | rest)
      · exact Or.inl ⟨spot, (cell _ _).mpr (Or.inr found)⟩
      · exact Or.inl ⟨place, (cell _ _).mpr (Or.inl ⟨rfl, rfl⟩)⟩
      · exact Or.inr rest
    · rintro (⟨spot, found⟩ | rest)
      · rcases (cell _ _).mp found with ⟨_, rfl⟩ | found
        · exact Or.inr (Or.inl rfl)
        · exact Or.inl ⟨spot, found⟩
      · exact Or.inr (Or.inr rest)
  case apart =>
    intro spot other found
    rcases (cell _ _).mp found with ⟨_, rfl⟩ | found
    · exact fresh
    · exact fun rest => sole.apart spot other found (List.mem_cons_of_mem _ rest)
  case nodup => exact (List.nodup_cons.mp sole.nodup).2
  case proper => exact sole.proper

omit [DecidableEq R] in
/-- A pointer is taken out of its handle. -/
theorem release (sole : Sole transit handles) (found : handles.cell place = some resource) :
    Sole (resource :: transit) (handles.put place none) := by
  have cell : ∀ other held, (handles.put place none).cell other = some held ↔
      other ≠ place ∧ handles.cell other = some held := by
    intro other held
    rw [cell_put]
    by_cases same : other = place
    · rw [same, Function.update_self]
      simp
    · rw [Function.update_of_ne same]
      simp [same]
  constructor
  case sole =>
    intro first second held here there
    exact sole.sole first second held ((cell _ _).mp here).2 ((cell _ _).mp there).2
  case held =>
    intro other
    rw [owned_put, sole.held, List.mem_cons]
    constructor
    · rintro (⟨spot, held⟩ | rest)
      · by_cases same : spot = place
        · rw [same, found, Option.some.injEq] at held
          exact Or.inr (Or.inl held.symm)
        · exact Or.inl ⟨spot, (cell _ _).mpr ⟨same, held⟩⟩
      · exact Or.inr (Or.inr rest)
    · rintro (⟨spot, held⟩ | rfl | rest)
      · exact Or.inl ⟨spot, ((cell _ _).mp held).2⟩
      · exact Or.inl ⟨place, found⟩
      · exact Or.inr rest
  case apart =>
    intro spot other held member
    obtain ⟨elsewhere, held⟩ := (cell _ _).mp held
    rcases List.mem_cons.mp member with rfl | rest
    · exact elsewhere (sole.sole spot place other held found)
    · exact sole.apart spot other held rest
  case nodup => exact List.nodup_cons.mpr ⟨sole.apart place resource found, sole.nodup⟩
  case proper => exact sole.proper

omit [DecidableEq P] in
/-- A resource in transit is given back. -/
theorem giveBack (sole : Sole (resource :: transit) handles) :
    Sole transit (handles.giveBack resource) := by
  have fresh := (List.nodup_cons.mp sole.nodup).1
  have owned : handles.owned resource = true := (sole.held resource).mpr (Or.inr List.mem_cons_self)
  constructor
  case sole =>
    rw [cell_giveBack]
    exact sole.sole
  case held =>
    intro other
    rw [owned_giveBack, cell_giveBack]
    by_cases same : other = resource
    · rw [same, Function.update_self]
      constructor
      · rintro ⟨⟩
      · rintro (⟨spot, found⟩ | rest)
        · exact absurd List.mem_cons_self (sole.apart spot resource found)
        · exact absurd rest fresh
    · rw [Function.update_of_ne same, sole.held, List.mem_cons, or_iff_right same]
  case apart =>
    rw [cell_giveBack]
    exact fun spot other found rest =>
      sole.apart spot other found (List.mem_cons_of_mem resource rest)
  case nodup => exact (List.nodup_cons.mp sole.nodup).2
  case proper =>
    rw [Handles.giveBack, if_pos owned]
    exact sole.proper

/-- What is left of a handle after its resource has been given back is a dangling pointer;
the store that follows replaces it. -/
theorem giveBackAt_put (sole : Sole transit handles) :
    Sole transit ((handles.giveBackAt place).put place none) := by
  rw [giveBackAt]
  split
  · rename_i resource found
    rw [put_giveBack]
    exact (sole.release found).giveBack
  · rename_i vacant
    rw [← vacant, put_cell]
    exact sole

theorem destroy (sole : Sole transit handles) : Sole transit (handles.destroy place) :=
  sole.giveBackAt_put

omit [DecidableEq R] in
/-- A vacant handle takes over what another one holds. -/
theorem moveConstruct (sole : Sole transit handles) {target source : P}
    (different : target ≠ source) (vacant : handles.cell target = none) :
    Sole transit (handles.moveConstruct target source) := by
  rw [Handles.moveConstruct, put_comm different]
  rcases found : handles.cell source with _ | resource
  · rw [← found, put_cell, found, ← vacant, put_cell]
    exact sole
  · refine (sole.release found).put ?_
    rw [cell_put, Function.update_of_ne different, vacant]

theorem moveAssign (sole : Sole transit handles) (target source : P) :
    Sole transit (handles.moveAssign target source) := by
  unfold Handles.moveAssign
  split
  · exact sole
  · rename_i different
    have dropped : Sole transit (handles.destroy target) := sole.destroy
    have passed := dropped.moveConstruct different (by rw [cell_destroy, Function.update_self])
    rw [Handles.moveConstruct, cell_destroy, Function.update_of_ne (Ne.symm different),
      Handles.destroy, put_put_self] at passed
    exact passed

end Sole

end Handles

end DpdkWrapper.Unique
