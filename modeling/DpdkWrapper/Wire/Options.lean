import DpdkWrapper.Wire.Reads

/-!
# The grammar of TCP options

`OffersMss` says which MSS a string of options offers, by the layout of the options
alone.  `parse_mss_option` finds it for every byte string.
-/

namespace DpdkWrapper.Wire

/-- An option of this kind has a length byte. -/
def Sized (kind : Byte) : Prop :=
  kind ≠ tcpOptEnd ∧ kind ≠ tcpOptNop

/-- The length byte of an option, which counts its kind and itself, fits if `count` bytes
follow it. -/
def Fits (size : Byte) (count : Nat) : Prop :=
  2 ≤ size.toNat ∧ size.toNat ≤ count + 2

/-- The MSS that options offer: that of the first MSS option of four bytes, if the walk
over the options reaches one and it is not zero. -/
inductive OffersMss : List Byte → BitVec 16 → Prop
  | none : OffersMss [] defaultPeerMss
  | stop {rest : List Byte} : OffersMss (tcpOptEnd :: rest) defaultPeerMss
  | nop {rest : List Byte} {mss : BitVec 16} (later : OffersMss rest mss) :
      OffersMss (tcpOptNop :: rest) mss
  | unsized {kind : Byte} (sized : Sized kind) : OffersMss [kind] defaultPeerMss
  | malformed {kind size : Byte} {rest : List Byte} (sized : Sized kind)
      (misfit : ¬Fits size rest.length) : OffersMss (kind :: size :: rest) defaultPeerMss
  | found {high low : Byte} {rest : List Byte} :
      OffersMss (tcpOptMss :: tcpOptMssLen :: high :: low :: rest)
        (if high ++ low = 0#16 then defaultPeerMss else high ++ low)
  | other {kind size : Byte} {rest : List Byte} {mss : BitVec 16} (sized : Sized kind)
      (fits : Fits size rest.length) (different : ¬(kind = tcpOptMss ∧ size = tcpOptMssLen))
      (later : OffersMss (rest.drop (size.toNat - 2)) mss) :
      OffersMss (kind :: size :: rest) mss

namespace OffersMss

variable {options : List Byte} {first second mss : BitVec 16}

theorem ne_zero (offers : OffersMss options mss) : mss ≠ 0 := by
  induction offers with
  | none | stop | unsized | malformed => decide
  | nop _ ih | other _ _ _ _ ih => exact ih
  | found =>
      split
      · decide
      · assumption

/-- The options determine the MSS. -/
theorem unique (left : OffersMss options first) (right : OffersMss options second) :
    first = second := by
  induction left generalizing second with
  | none =>
      cases right
      rfl
  | stop =>
      cases right with
      | other sized => exact absurd rfl sized.1
      | _ => rfl
  | nop _ ih =>
      cases right with
      | nop later => exact ih later
      | unsized sized | malformed sized | other sized => exact absurd rfl sized.2
  | unsized sized =>
      cases right with
      | nop => exact absurd rfl sized.2
      | _ => rfl
  | malformed sized misfit =>
      cases right with
      | stop | malformed => rfl
      | nop => exact absurd rfl sized.2
      | found => exact absurd ⟨by decide, by simp [tcpOptMssLen]⟩ misfit
      | other _ fits => exact absurd fits misfit
  | found =>
      cases right with
      | malformed _ misfit => exact absurd ⟨by decide, by simp [tcpOptMssLen]⟩ misfit
      | found => rfl
      | other _ _ different => exact absurd ⟨rfl, rfl⟩ different
  | other sized fits different _ ih =>
      cases right with
      | stop => exact absurd rfl sized.1
      | nop => exact absurd rfl sized.2
      | malformed _ misfit => exact absurd fits misfit
      | found => exact absurd ⟨rfl, rfl⟩ different
      | other _ _ _ later => exact ih later

end OffersMss

/-- An option with a length byte. -/
theorem parseMssLoop_sized {opt : List Byte} {fuel i : Nat} {kind : Byte}
    (ih : ∀ i, opt.length ≤ fuel + i →
      ∃ mss, parseMssLoop opt fuel i = some mss ∧ OffersMss (opt.drop i) mss)
    (enough : opt.length ≤ fuel + 1 + i) (sized : Sized kind) :
    ∃ mss, (if i + 1 ≥ opt.length then some defaultPeerMss
      else opt[i + 1]?.bind fun size =>
        if size.toNat < 2 ∨ i + size.toNat > opt.length then some defaultPeerMss
        else if kind = tcpOptMss ∧ size = tcpOptMssLen then
          opt[i + 2]?.bind fun high => opt[i + 3]?.bind fun low =>
            some (if high ++ low ≠ 0#16 then high ++ low else defaultPeerMss)
        else parseMssLoop opt fuel (i + size.toNat)) = some mss ∧
      OffersMss (kind :: opt.drop (i + 1)) mss := by
  by_cases longer : i + 1 < opt.length
  case neg =>
    rw [if_pos (Nat.not_lt.mp longer), List.drop_eq_nil_of_le (Nat.not_lt.mp longer)]
    exact ⟨_, rfl, .unsized sized⟩
  case pos =>
    rw [if_neg (Nat.not_le.mpr longer), List.getElem?_eq_getElem longer, Option.bind_some,
      List.drop_eq_getElem_cons longer]
    generalize opt[i + 1] = size
    have fits_iff : Fits size (opt.drop (i + 1 + 1)).length ↔
        ¬(size.toNat < 2 ∨ i + size.toNat > opt.length) := by
      rw [Fits, List.length_drop]
      omega
    by_cases misfit : size.toNat < 2 ∨ i + size.toNat > opt.length
    · rw [if_pos misfit]
      exact ⟨_, rfl, .malformed sized (by rw [fits_iff, not_not]; exact misfit)⟩
    · rw [if_neg misfit]
      by_cases isMss : kind = tcpOptMss ∧ size = tcpOptMssLen
      · obtain ⟨rfl, rfl⟩ := isMss
        have room : i + 4 ≤ opt.length := by
          rw [not_or, Nat.not_lt, Nat.not_lt] at misfit
          exact misfit.2
        rw [if_pos ⟨rfl, rfl⟩, List.drop_eq_getElem_cons (by omega : i + 1 + 1 < opt.length),
          List.drop_eq_getElem_cons (by omega : i + 1 + 1 + 1 < opt.length),
          List.getElem?_eq_getElem (by omega : i + 2 < opt.length),
          List.getElem?_eq_getElem (by omega : i + 3 < opt.length)]
        exact ⟨_, by rw [Option.bind_some, Option.bind_some, ite_not], .found⟩
      · rw [if_neg isMss]
        obtain ⟨mss, parsed, offers⟩ := ih (i + size.toNat) (by omega)
        refine ⟨mss, parsed, .other sized (fits_iff.mpr misfit) isMss ?_⟩
        rw [List.drop_drop]
        have same : i + 1 + 1 + (size.toNat - 2) = i + size.toNat := by omega
        rw [same]
        exact offers

/-- The loop of `parse_mss_option` finds what the remaining options offer. -/
theorem parseMssLoop_offers {opt : List Byte} (fuel : Nat) :
    ∀ i, opt.length ≤ fuel + i →
      ∃ mss, parseMssLoop opt fuel i = some mss ∧ OffersMss (opt.drop i) mss := by
  induction fuel with
  | zero =>
      intro i enough
      rw [Nat.zero_add] at enough
      rw [parseMssLoop, if_neg (Nat.not_lt.mpr enough), List.drop_eq_nil_of_le enough]
      exact ⟨_, rfl, .none⟩
  | succ fuel ih =>
      intro i enough
      rw [parseMssLoop]
      by_cases inside : i < opt.length
      case neg =>
        rw [if_neg inside, List.drop_eq_nil_of_le (Nat.not_lt.mp inside)]
        exact ⟨_, rfl, .none⟩
      case pos =>
        rw [if_pos inside, List.getElem?_eq_getElem inside, List.drop_eq_getElem_cons inside]
        generalize opt[i] = kind
        simp only [Option.bind_eq_bind, Option.bind_some]
        by_cases stops : kind = tcpOptEnd
        · subst stops
          exact ⟨_, if_pos rfl, .stop⟩
        · rw [if_neg stops]
          by_cases skips : kind = tcpOptNop
          · subst skips
            obtain ⟨mss, parsed, offers⟩ := ih (i + 1) (by omega)
            exact ⟨mss, (if_pos rfl).trans parsed, .nop offers⟩
          · rw [if_neg skips]
            exact parseMssLoop_sized ih enough ⟨stops, skips⟩

/-- `parse_mss_option` finds what the options offer. -/
theorem parseMssOption_offers (opt : List Byte) :
    ∃ mss, parseMssOption opt = some mss ∧ OffersMss opt mss :=
  parseMssLoop_offers opt.length 0 (Nat.le_refl _)

end DpdkWrapper.Wire
