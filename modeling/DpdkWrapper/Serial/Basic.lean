import Mathlib.Data.Nat.Basic
import Mathlib.Tactic.Ring
import Mathlib.Tactic.Linarith

/-!
# Serial-number arithmetic

Counters that wrap around a power of two are compared by the sign of their
difference.  The comparison agrees with the order of the unbounded counters
behind them as long as these are less than half the circle apart.  Everything
here is phrased with the forward distance from one point of the circle to
another, which turns wrap-around questions into linear arithmetic.
-/

namespace DpdkWrapper.Serial

variable {w : Nat}

/-- The number of increments that take `a` to `b`. -/
def dist (a b : BitVec w) : Nat :=
  (b - a).toNat

/-- `a` comes before `b`: their signed difference is negative. -/
def lt (a b : BitVec w) : Bool :=
  decide ((a - b).toInt < 0)

/-- `a` comes before `b` or is `b`. -/
def le (a b : BitVec w) : Bool :=
  decide ((a - b).toInt ≤ 0)

theorem dist_lt (a b : BitVec w) : dist a b < 2 ^ w :=
  (b - a).isLt

@[simp]
theorem dist_self (a : BitVec w) : dist a a = 0 := by
  simp [dist]

theorem dist_eq_zero_iff {a b : BitVec w} : dist a b = 0 ↔ a = b := by
  constructor
  · intro zero
    have difference : b - a = 0#w := BitVec.eq_of_toNat_eq (by simpa [dist] using zero)
    have same : b = a := by
      calc
        b = b - a + a := (BitVec.sub_add_cancel b a).symm
        _ = a := by rw [difference, BitVec.zero_add]
    exact same.symm
  · rintro rfl
    exact dist_self a

/-- A point is its origin advanced by the distance between them. -/
theorem add_dist (a b : BitVec w) : a + BitVec.ofNat w (dist a b) = b := by
  rw [dist, BitVec.ofNat_toNat, BitVec.setWidth_eq, BitVec.add_comm,
    BitVec.sub_add_cancel]

/-- Going all the way round from a different point. -/
theorem dist_comm_of_ne {a b : BitVec w} (different : a ≠ b) :
    dist a b + dist b a = 2 ^ w := by
  have positive : dist a b ≠ 0 := fun zero => different (dist_eq_zero_iff.mp zero)
  have back : dist b a = (2 ^ w - dist a b) % 2 ^ w := by
    have negated : a - b = -(b - a) := by
      rw [BitVec.neg_sub, BitVec.add_comm, BitVec.sub_eq_add_neg]
    rw [dist, negated, BitVec.toNat_neg]
    rfl
  have bound := dist_lt a b
  rw [back, Nat.mod_eq_of_lt (by omega)]
  omega

/-- Advancing by an offset moves exactly that far, unless it goes round. -/
theorem dist_add_ofNat (base : BitVec w) {offset : Nat} (small : offset < 2 ^ w) :
    dist base (base + BitVec.ofNat w offset) = offset := by
  rw [dist, BitVec.add_comm, BitVec.add_sub_cancel, BitVec.toNat_ofNat,
    Nat.mod_eq_of_lt small]

/-- The distance between two points at known offsets from one origin. -/
theorem dist_offsets (base : BitVec w) {first second : Nat}
    (ordered : first ≤ second) (close : second - first < 2 ^ w) :
    dist (base + BitVec.ofNat w first) (base + BitVec.ofNat w second) =
      second - first := by
  have split : base + BitVec.ofNat w second =
      base + BitVec.ofNat w first + BitVec.ofNat w (second - first) := by
    rw [BitVec.add_assoc, ← BitVec.ofNat_add, Nat.add_sub_cancel' ordered]
  rw [split, dist_add_ofNat _ close]

/-- Distances along one stretch of the circle add up. -/
theorem dist_add_dist {a b c : BitVec w} (within : dist a b + dist b c < 2 ^ w) :
    dist a c = dist a b + dist b c := by
  have target : c = a + BitVec.ofNat w (dist a b + dist b c) := by
    rw [BitVec.ofNat_add, ← BitVec.add_assoc, add_dist, add_dist]
  calc
    dist a c = dist a (a + BitVec.ofNat w (dist a b + dist b c)) :=
      congrArg (dist a) target
    _ = dist a b + dist b c := dist_add_ofNat a within

/-- Advancing the second point, unless it goes round. -/
theorem dist_advance {a b : BitVec w} {offset : Nat} (within : dist a b + offset < 2 ^ w) :
    dist a (b + BitVec.ofNat w offset) = dist a b + offset := by
  have step := dist_add_ofNat b (by omega : offset < 2 ^ w)
  rw [dist_add_dist (by rw [step]; exact within), step]

/-- A point on the way splits the distance. -/
theorem dist_sub_dist {a b c : BitVec w} (before : dist a b ≤ dist a c) :
    dist b c = dist a c - dist a b := by
  have bound := dist_lt a c
  have first := dist_offsets a before (by omega)
  rw [add_dist, add_dist] at first
  exact first

/-- Taking the second point back, but not behind the first. -/
theorem dist_retreat {a b : BitVec w} {offset : Nat}
    (before : offset ≤ dist a (b + BitVec.ofNat w offset)) :
    dist a b + offset = dist a (b + BitVec.ofNat w offset) := by
  have bound := dist_lt a (b + BitVec.ofNat w offset)
  have origin : b = a + BitVec.ofNat w (dist a (b + BitVec.ofNat w offset) - offset) := by
    have target := add_dist a (b + BitVec.ofNat w offset)
    nth_rewrite 1 [← Nat.sub_add_cancel before] at target
    rw [BitVec.ofNat_add, ← BitVec.add_assoc] at target
    exact (BitVec.add_left_inj _).mp target.symm
  have short := dist_add_ofNat a
    (by omega : dist a (b + BitVec.ofNat w offset) - offset < 2 ^ w)
  rw [← origin] at short
  omega

/-- The same for a point in between. -/
theorem dist_of_between {a b c : BitVec w} (between : dist b c ≤ dist a c) :
    dist a b + dist b c = dist a c := by
  have target := add_dist b c
  rw [← target] at between
  nth_rewrite 1 [target] at between
  have whole := dist_retreat between
  rwa [target] at whole

theorem lt_iff_half_le (a b : BitVec w) :
    lt a b = true ↔ 2 ^ w ≤ 2 * dist b a := by
  rw [lt, decide_eq_true_iff, BitVec.toInt_neg_iff]
  rfl

/-- `a` is before `b` exactly when `b` lies up to half the circle ahead. -/
theorem lt_iff (a b : BitVec w) :
    lt a b = true ↔ 0 < dist a b ∧ 2 * dist a b ≤ 2 ^ w := by
  rw [lt_iff_half_le]
  by_cases same : a = b
  · subst same
    have positive := Nat.two_pow_pos w
    simp
  · have around := dist_comm_of_ne same
    have nonzero : dist a b ≠ 0 := fun zero => same (dist_eq_zero_iff.mp zero)
    omega

theorem not_lt_iff (a b : BitVec w) :
    lt a b = false ↔ 2 * dist b a < 2 ^ w := by
  rw [← Bool.not_eq_true, lt_iff_half_le]
  omega

@[simp]
theorem lt_irrefl (a : BitVec w) : lt a a = false := by
  rw [not_lt_iff, dist_self]
  exact Nat.two_pow_pos w

/-- Points at known offsets compare like the offsets, up to half the circle. -/
theorem lt_offsets (base : BitVec w) {first second : Nat} (ordered : first < second)
    (close : 2 * (second - first) ≤ 2 ^ w) :
    lt (base + BitVec.ofNat w first) (base + BitVec.ofNat w second) = true := by
  have positive := Nat.two_pow_pos w
  rw [lt_iff, dist_offsets base (Nat.le_of_lt ordered) (by omega)]
  omega

theorem not_lt_offsets (base : BitVec w) {first second : Nat} (ordered : second ≤ first)
    (close : 2 * (first - second) < 2 ^ w) :
    lt (base + BitVec.ofNat w first) (base + BitVec.ofNat w second) = false := by
  rw [not_lt_iff, dist_offsets base ordered (by omega)]
  exact close

theorem le_eq_lt_or_eq (a b : BitVec w) :
    le a b = true ↔ lt a b = true ∨ a = b := by
  rw [le, lt, decide_eq_true_iff, decide_eq_true_iff]
  constructor
  · intro nonpositive
    rcases lt_or_eq_of_le nonpositive with negative | zero
    · exact Or.inl negative
    · right
      have difference : a - b = 0#w := BitVec.eq_of_toInt_eq (by simpa using zero)
      calc
        a = a - b + b := (BitVec.sub_add_cancel a b).symm
        _ = b := by rw [difference, BitVec.zero_add]
  · rintro (negative | rfl)
    · exact le_of_lt negative
    · simp

theorem le_iff (a b : BitVec w) : le a b = true ↔ 2 * dist a b ≤ 2 ^ w := by
  rw [le_eq_lt_or_eq, lt_iff]
  constructor
  · rintro (⟨_, bound⟩ | rfl)
    · exact bound
    · simp
  · intro bound
    by_cases same : a = b
    · exact Or.inr same
    · have nonzero : dist a b ≠ 0 := fun zero => same (dist_eq_zero_iff.mp zero)
      exact Or.inl ⟨by omega, bound⟩

/-- Points of one half of the circle compare like their distances from its start. -/
theorem lt_iff_of_span {base a b : BitVec w} (first : 2 * dist base a < 2 ^ w)
    (second : 2 * dist base b < 2 ^ w) : lt a b = true ↔ dist base a < dist base b := by
  constructor
  · intro before
    by_contra behind
    have after := not_lt_offsets base (Nat.not_lt.mp behind) (by omega)
    rw [add_dist, add_dist, before] at after
    cases after
  · intro before
    have after := lt_offsets base before (by omega)
    rwa [add_dist, add_dist] at after

theorem dist_inj {base a b : BitVec w} (same : dist base a = dist base b) : a = b := by
  rw [← add_dist base a, same, add_dist]

theorem le_iff_of_span {base a b : BitVec w} (first : 2 * dist base a < 2 ^ w)
    (second : 2 * dist base b < 2 ^ w) : le a b = true ↔ dist base a ≤ dist base b := by
  rw [le_eq_lt_or_eq, lt_iff_of_span first second]
  constructor
  · rintro (before | rfl)
    · exact Nat.le_of_lt before
    · exact Nat.le_refl _
  · intro before
    rcases Nat.lt_or_eq_of_le before with strict | same
    · exact Or.inl strict
    · exact Or.inr (dist_inj same)

end DpdkWrapper.Serial
