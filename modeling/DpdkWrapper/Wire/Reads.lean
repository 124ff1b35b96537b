import DpdkWrapper.Wire.Segment
import Mathlib.Data.List.Induction

/-!
# Parsers that stay below a limit

A parser of a frame reads below a limit if none of its reads fails on the frame, and
cutting the frame off at the limit makes no difference to it.  Reads beyond the limit
would fail on the cut frame.
-/

namespace DpdkWrapper.Wire

variable {α β : Type}

/-! ## Single reads -/

theorem slice_of_le {frame : List Byte} {offset count : Nat}
    (inside : offset + count ≤ frame.length) :
    slice frame offset count = some ((frame.drop offset).take count) :=
  if_pos inside

theorem field_of_le {frame : List Byte} {offset count : Nat}
    (inside : offset + count ≤ frame.length) : ∃ value, field frame offset count = some value := by
  rw [field, slice_of_le inside]
  exact ⟨_, rfl⟩

/-- The end of what was read is itself in the frame. -/
theorem slice_suffix {frame bytes last : List Byte} {offset count : Nat}
    (read : slice frame offset count = some bytes) (isLast : last <:+ bytes) :
    slice frame (offset + (count - last.length)) last.length = some last := by
  have size := slice_length read
  have shorter := isLast.length_le
  have dropped := List.suffix_iff_eq_drop.mp isLast
  unfold slice at read
  split at read
  · rename_i inside
    have bytesEq := Option.some.inj read
    rw [slice_of_le (by omega), ← List.drop_drop]
    congr 1
    calc
      ((frame.drop offset).drop (count - last.length)).take last.length =
          ((frame.drop offset).take count).drop (count - last.length) := by
        rw [List.drop_take]
        congr 1
        omega
      _ = bytes.drop (bytes.length - last.length) := by rw [bytesEq, size]
      _ = last := dropped.symm
  · cases read

theorem slice_take {frame : List Byte} {offset count limit : Nat}
    (below : offset + count ≤ limit) (fits : limit ≤ frame.length) :
    slice (frame.take limit) offset count = slice frame offset count := by
  have short : offset + count ≤ (frame.take limit).length := by
    rw [List.length_take, Nat.min_eq_left fits]
    exact below
  rw [slice_of_le short, slice_of_le (Nat.le_trans below fits), List.drop_take, List.take_take,
    Nat.min_eq_left (by omega)]

theorem field_take {frame : List Byte} {offset count limit : Nat}
    (below : offset + count ≤ limit) (fits : limit ≤ frame.length) :
    field (frame.take limit) offset count = field frame offset count := by
  rw [field, slice_take below fits, field]

theorem ofBytes_lt (bytes : List Byte) : ofBytes bytes < 256 ^ bytes.length := by
  induction bytes using List.reverseRecOn with
  | nil => decide
  | append_singleton bytes byte ih =>
      have small := byte.isLt
      rw [ofBytes_append_singleton, List.length_append, List.length_singleton, Nat.pow_succ]
      omega

theorem field_lt {frame : List Byte} {offset count value : Nat}
    (read : field frame offset count = some value) : value < 256 ^ count := by
  obtain ⟨bytes, sliced, rfl⟩ := Option.map_eq_some_iff.mp read
  have bound := ofBytes_lt bytes
  rwa [slice_length sliced] at bound

/-! ## Parsers -/

/-- Every read of the parser succeeds on the frame and lies below the limit. -/
structure ReadsBelow (limit : Nat) (frame : List Byte) (parse : List Byte → Option α) :
    Prop where
  succeeds : (parse frame).isSome
  blind : parse (frame.take limit) = parse frame

namespace ReadsBelow

variable {limit offset count : Nat} {frame : List Byte}

theorem pure (value : α) : ReadsBelow limit frame fun _ => some value :=
  ⟨rfl, rfl⟩

theorem bind {first : List Byte → Option α} {rest : α → List Byte → Option β}
    (reads : ReadsBelow limit frame first)
    (further : ∀ value, first frame = some value → ReadsBelow limit frame (rest value)) :
    ReadsBelow limit frame fun frame => first frame >>= fun value => rest value frame := by
  obtain ⟨value, parsed⟩ := Option.isSome_iff_exists.mp reads.succeeds
  have later := further value parsed
  constructor
  · rw [parsed]
    exact later.succeeds
  · rw [reads.blind, parsed]
    exact later.blind

theorem map {first : List Byte → Option α} (reads : ReadsBelow limit frame first)
    (change : α → β) : ReadsBelow limit frame fun frame => (first frame).map change where
  succeeds := by
    rw [Option.isSome_map]
    exact reads.succeeds
  blind := by rw [reads.blind]

theorem ite {condition : Prop} [Decidable condition] {first second : List Byte → Option α}
    (whenTrue : condition → ReadsBelow limit frame first)
    (whenFalse : ¬condition → ReadsBelow limit frame second) :
    ReadsBelow limit frame fun frame => if condition then first frame else second frame := by
  by_cases holds : condition
  · simpa only [if_pos holds] using whenTrue holds
  · simpa only [if_neg holds] using whenFalse holds

theorem slice (below : offset + count ≤ limit) (fits : limit ≤ frame.length) :
    ReadsBelow limit frame (Wire.slice · offset count) where
  succeeds := by
    rw [slice_of_le (Nat.le_trans below fits)]
    rfl
  blind := slice_take below fits

theorem field (below : offset + count ≤ limit) (fits : limit ≤ frame.length) :
    ReadsBelow limit frame (Wire.field · offset count) where
  succeeds := by
    obtain ⟨value, read⟩ := field_of_le (Nat.le_trans below fits)
    rw [read]
    rfl
  blind := field_take below fits

end ReadsBelow

/-! ## Options -/

/-- Each round of the walk over the options moves on, and reads no further than the
lengths it has checked. -/
theorem parseMssLoop_isSome {opt : List Byte} :
    ∀ (fuel i : Nat), opt.length ≤ fuel + i → (parseMssLoop opt fuel i).isSome := by
  intro fuel
  induction fuel with
  | zero =>
      intro i enough
      rw [parseMssLoop, if_neg (by omega)]
      rfl
  | succ fuel ih =>
      intro i enough
      rw [parseMssLoop]
      split
      · rename_i inside
        rw [List.getElem?_eq_getElem inside]
        simp only [Option.bind_eq_bind, Option.bind_some]
        split
        · rfl
        · split
          · exact ih (i + 1) (by omega)
          · split
            · rfl
            · rename_i longer
              rw [List.getElem?_eq_getElem (Nat.not_le.mp longer), Option.bind_some]
              split
              · rfl
              · rename_i fits
                rw [not_or, Nat.not_lt, Nat.not_lt] at fits
                split
                · rename_i isMss
                  have size : (opt[i + 1]).toNat = 4 := by rw [isMss.2]; rfl
                  rw [List.getElem?_eq_getElem (by omega : i + 2 < opt.length),
                    List.getElem?_eq_getElem (by omega : i + 3 < opt.length)]
                  rfl
                · exact ih _ (by omega)
      · rfl

/-- `parse_mss_option` reads inside the options only. -/
theorem parseMssOption_isSome (opt : List Byte) : (parseMssOption opt).isSome :=
  parseMssLoop_isSome opt.length 0 (Nat.le_refl _)

end DpdkWrapper.Wire
