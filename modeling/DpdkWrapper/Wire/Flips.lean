import DpdkWrapper.Wire.Checksum
import DpdkWrapper.Wire.Reads

/-!
# Single flipped bits

Flipping one bit changes a sum of 16-bit words by a power of two below 65536, which is no
multiple of 65535.  A sum that folded to all ones therefore does not do so any more.
-/

namespace DpdkWrapper.Wire

/-- One bit of one byte flipped. -/
def flipBit (bytes : List Byte) (offset bit : Nat) : List Byte :=
  bytes.modify offset fun byte => byte ^^^ BitVec.twoPow 8 bit

@[simp]
theorem flipBit_length (bytes : List Byte) (offset bit : Nat) :
    (flipBit bytes offset bit).length = bytes.length := by
  simp [flipBit]

/-! ## Reads -/

/-- Nothing in front of the flipped byte has changed. -/
theorem slice_flipBit_of_le {bytes : List Byte} {offset bit start count : Nat}
    (before : start + count ≤ offset) :
    slice (flipBit bytes offset bit) start count = slice bytes start count := by
  unfold slice
  rw [flipBit_length]
  split
  · rw [flipBit, List.drop_modify_of_ge _ _ _ _ (by omega), List.take_modify,
      List.modify_eq_self]
    rw [List.length_take]
    omega
  · rfl

theorem field_flipBit_of_le {bytes : List Byte} {offset bit start count : Nat}
    (before : start + count ≤ offset) :
    field (flipBit bytes offset bit) start count = field bytes start count := by
  rw [field, slice_flipBit_of_le before, field]

/-- A part that the flipped byte lies in. -/
theorem slice_flipBit {bytes part : List Byte} {offset bit start count : Nat}
    (read : slice bytes start count = some part) (inside : start ≤ offset) :
    slice (flipBit bytes offset bit) start count = some (flipBit part (offset - start) bit) := by
  unfold slice at read ⊢
  rw [flipBit_length]
  split at read
  · rename_i fits
    cases read
    rw [if_pos fits, flipBit, List.drop_modify_of_ge _ _ _ _ inside, List.take_modify, flipBit]
  · cases read

/-! ## Sums -/

/-- A flipped bit adds its weight or takes it away. -/
theorem toNat_flip (byte : Byte) {bit : Nat} (inByte : bit < 8) :
    (byte ^^^ BitVec.twoPow 8 bit).toNat = byte.toNat + 2 ^ bit ∨
      (byte ^^^ BitVec.twoPow 8 bit).toNat + 2 ^ bit = byte.toNat := by
  have weights : ∀ (value : Fin 256) (place : Fin 8),
      value.val ^^^ 2 ^ place.val = value.val + 2 ^ place.val ∨
        (value.val ^^^ 2 ^ place.val) + 2 ^ place.val = value.val := by
    decide +kernel
  have small : 2 ^ bit < 2 ^ 8 := Nat.pow_lt_pow_right (by decide) inByte
  rw [BitVec.toNat_xor, BitVec.toNat_twoPow, Nat.mod_eq_of_lt small]
  exact weights ⟨byte.toNat, byte.isLt⟩ ⟨bit, inByte⟩

/-- Two sums that differ by less than 65535. -/
def Apart (sum other : Nat) : Prop :=
  ∃ weight, 0 < weight ∧ weight < 65535 ∧ (other = sum + weight ∨ other + weight = sum)

theorem rawCksum_flipBit {bytes : List Byte} {offset bit : Nat} (inside : offset < bytes.length)
    (inByte : bit < 8) (sum : Nat) :
    Apart (rawCksum bytes sum) (rawCksum (flipBit bytes offset bit) sum) := by
  have positive : 0 < 2 ^ bit := Nat.two_pow_pos bit
  have small : 2 ^ bit ≤ 128 := Nat.pow_le_pow_right (by decide) (Nat.le_of_lt_succ inByte)
  induction bytes, sum using rawCksum.induct generalizing offset with
  | case1 sum => cases inside
  | case2 last sum =>
      have first : offset = 0 := by
        rw [List.length_singleton] at inside
        omega
      subst first
      have flipped := toNat_flip last inByte
      rw [flipBit, List.modify_zero_cons, rawCksum, rawCksum]
      exact ⟨2 ^ bit, by omega, by omega, by omega⟩
  | case3 low high rest sum ih =>
      rcases offset with _ | _ | offset
      · have flipped := toNat_flip low inByte
        rw [flipBit, List.modify_zero_cons, rawCksum, rawCksum, rawCksum_eq_add,
          rawCksum_eq_add rest (sum + _)]
        exact ⟨2 ^ bit, by omega, by omega, by omega⟩
      · have flipped := toNat_flip high inByte
        rw [flipBit, List.modify_succ_cons, List.modify_zero_cons, rawCksum, rawCksum,
          rawCksum_eq_add, rawCksum_eq_add rest (sum + _)]
        exact ⟨256 * 2 ^ bit, by omega, by omega, by omega⟩
      · have further : offset < rest.length := by
          simp only [List.length_cons] at inside
          omega
        rw [flipBit, List.modify_succ_cons, List.modify_succ_cons, rawCksum, rawCksum]
        exact ih further

/-- A sum that folds to all ones is a multiple of 65535, and so is no other sum close to
it. -/
theorem rawCksumReduce_ne_ones {sum other : Nat} (apart : Apart sum other) (small : sum < 2 ^ 32)
    (otherSmall : other < 2 ^ 32) (ones : rawCksumReduce sum = 0xffff) :
    rawCksumReduce other ≠ 0xffff := by
  obtain ⟨weight, positive, bound, moved⟩ := apart
  intro otherOnes
  have folded := rawCksumReduce_mod small
  have otherFolded := rawCksumReduce_mod otherSmall
  rw [ones] at folded
  rw [otherOnes] at otherFolded
  omega

/-- `tcp_checksum_ok` notices a flipped bit. -/
theorem tcpChecksumOk_flipBit {srcAddr dstAddr l4 : List Byte} {proto : Byte} {offset bit : Nat}
    (ok : tcpChecksumOk srcAddr dstAddr proto l4 = true) (short : l4.length < 65536)
    (inside : offset < l4.length) (inByte : bit < 8) :
    tcpChecksumOk srcAddr dstAddr proto (flipBit l4 offset bit) = false := by
  unfold tcpChecksumOk at ok ⊢
  rw [flipBit_length]
  have pseudo : ipv4PhdrCksum srcAddr dstAddr proto l4.length ≤ 65535 := rawCksumReduce_le _
  generalize ipv4PhdrCksum srcAddr dstAddr proto l4.length = phdr at ok pseudo ⊢
  have bound := rawCksum_le l4 phdr
  have flippedBound := rawCksum_le (flipBit l4 offset bit) phdr
  rw [flipBit_length] at flippedBound
  rw [beq_iff_eq] at ok
  rw [beq_eq_false_iff_ne]
  exact rawCksumReduce_ne_ones (rawCksum_flipBit inside inByte phdr) (by omega) (by omega) ok

end DpdkWrapper.Wire
