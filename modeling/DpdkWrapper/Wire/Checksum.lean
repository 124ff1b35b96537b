import DpdkWrapper.Wire.Bytes

/-!
# Filled-in checksums verify

The generator writes the complement of a folded sum into a field that was zero; the
verifier folds the sum over everything, that field included, and looks for all ones.
Both folds are exact modulo 65535 as long as the sum is a 32-bit number, and only the
sum of nothing folds to zero.
-/

namespace DpdkWrapper.Wire

/-! ## Sums -/

theorem rawCksum_add (bytes : List Byte) (sum more : Nat) :
    rawCksum bytes (sum + more) = rawCksum bytes sum + more := by
  induction bytes, sum using rawCksum.induct with
  | case1 sum => rfl
  | case2 last sum => exact Nat.add_right_comm sum more last.toNat
  | case3 low high rest sum ih =>
      rw [rawCksum, Nat.add_right_comm, ih, rawCksum]

/-- The sum that was there before the bytes is only carried along. -/
theorem rawCksum_eq_add (bytes : List Byte) (sum : Nat) :
    rawCksum bytes sum = rawCksum bytes 0 + sum := by
  rw [← rawCksum_add, Nat.zero_add]

/-- No word is split between the two parts. -/
theorem rawCksum_append {first : List Byte} (even : first.length % 2 = 0) (rest : List Byte)
    (sum : Nat) : rawCksum (first ++ rest) sum = rawCksum rest (rawCksum first sum) := by
  induction first, sum using rawCksum.induct with
  | case1 sum => rfl
  | case2 last sum => cases even
  | case3 low high others sum ih =>
      have fewer : others.length % 2 = 0 := by
        simp only [List.length_cons] at even
        omega
      rw [List.cons_append, List.cons_append, rawCksum, ih fewer, rawCksum]

theorem rawCksum_le (bytes : List Byte) (sum : Nat) :
    rawCksum bytes sum ≤ sum + 65535 * ((bytes.length + 1) / 2) := by
  induction bytes, sum using rawCksum.induct with
  | case1 sum => exact Nat.le_add_right _ _
  | case2 last sum =>
      have small := last.isLt
      simp only [rawCksum, List.length_singleton]
      omega
  | case3 low high rest sum ih =>
      have lowSmall := low.isLt
      have highSmall := high.isLt
      simp only [rawCksum, List.length_cons]
      omega

/-- Only zeros sum up to zero. -/
theorem rawCksum_pos {bytes : List Byte} {byte : Byte} (member : byte ∈ bytes) (nonzero : byte ≠ 0)
    (sum : Nat) : 0 < rawCksum bytes sum := by
  have positive : 0 < byte.toNat := by
    rw [Nat.pos_iff_ne_zero]
    intro zero
    exact nonzero (BitVec.eq_of_toNat_eq zero)
  induction bytes, sum using rawCksum.induct with
  | case1 sum => cases member
  | case2 last sum =>
      rw [List.mem_singleton.mp member] at positive
      exact Nat.add_pos_right sum positive
  | case3 low high rest sum ih =>
      rcases List.mem_cons.mp member with rfl | others
      · rw [rawCksum, rawCksum_eq_add]
        omega
      · rcases List.mem_cons.mp others with rfl | further
        · rw [rawCksum, rawCksum_eq_add]
          omega
        · exact ih further

/-! ## Folds -/

theorem rawCksumReduce_le (sum : Nat) : rawCksumReduce sum ≤ 65535 := by
  rw [rawCksumReduce]
  omega

/-- One fold takes out a multiple of 65535. -/
theorem fold_mod (sum : Nat) : (sum / 65536 + sum % 65536) % 65535 = sum % 65535 := by
  omega

/-- After two folds of a 32-bit sum no carry is left. -/
theorem rawCksumReduce_eq {sum : Nat} (small : sum < 2 ^ 32) :
    ∃ once, once = sum / 65536 + sum % 65536 ∧
      rawCksumReduce sum = once / 65536 + once % 65536 := by
  refine ⟨_, rfl, ?_⟩
  have once : sum / 65536 + sum % 65536 ≤ 131070 := by omega
  rw [rawCksumReduce]
  generalize sum / 65536 + sum % 65536 = carried at once ⊢
  exact Nat.mod_eq_of_lt (by omega)

theorem rawCksumReduce_mod {sum : Nat} (small : sum < 2 ^ 32) :
    rawCksumReduce sum % 65535 = sum % 65535 := by
  obtain ⟨once, rfl, twice⟩ := rawCksumReduce_eq small
  rw [twice, fold_mod, fold_mod]

/-- All ones, from a positive multiple of 65535. -/
theorem rawCksumReduce_eq_ones {sum : Nat} (small : sum < 2 ^ 32) (positive : 0 < sum)
    (multiple : sum % 65535 = 0) : rawCksumReduce sum = 0xffff := by
  have folded := rawCksumReduce_mod small
  have bound := rawCksumReduce_le sum
  obtain ⟨once, carried, twice⟩ := rawCksumReduce_eq small
  omega

/-! ## The checksum field -/

/-- A 16-bit number as it lies in memory. -/
def toWord (value : Nat) : List Byte :=
  [BitVec.ofNat 8 value, BitVec.ofNat 8 (value / 256)]

@[simp]
theorem toWord_length (value : Nat) : (toWord value).length = 2 := by
  simp [toWord]

theorem rawCksum_toWord {value : Nat} (small : value ≤ 65535) (sum : Nat) :
    rawCksum (toWord value) sum = sum + value := by
  simp only [toWord, rawCksum, BitVec.toNat_ofNat]
  omega

/-- Filling in a field that was zero adds its value to the sum. -/
theorem rawCksum_fill {before : List Byte} (even : before.length % 2 = 0) (after : List Byte)
    {value : Nat} (small : value ≤ 65535) (sum : Nat) :
    rawCksum (before ++ toWord value ++ after) sum =
      rawCksum (before ++ toWord 0 ++ after) sum + value := by
  have evenBoth (word : Nat) : (before ++ toWord word).length % 2 = 0 := by
    rw [List.length_append, toWord_length]
    omega
  rw [rawCksum_append (evenBoth value), rawCksum_append even, rawCksum_toWord small, rawCksum_add,
    rawCksum_append (evenBoth 0), rawCksum_append even, rawCksum_toWord (Nat.zero_le _),
    Nat.add_zero]

/-- `rte_ipv4_cksum` of a header with its own checksum in it. -/
theorem ipv4Cksum_fill {before after : List Byte} (even : before.length % 2 = 0)
    (short : (before ++ toWord 0 ++ after).length < 65536)
    (nonzero : 0 < rawCksum (before ++ toWord 0 ++ after) 0) :
    ipv4Cksum (before ++ toWord (ipv4Cksum (before ++ toWord 0 ++ after)) ++ after) = 0 := by
  have bound := rawCksum_le (before ++ toWord 0 ++ after) 0
  have fits : rawCksum (before ++ toWord 0 ++ after) 0 < 2 ^ 32 := by omega
  have folded := rawCksumReduce_mod fits
  have reduced := rawCksumReduce_le (rawCksum (before ++ toWord 0 ++ after) 0)
  have filled : ipv4Cksum (before ++ toWord 0 ++ after) =
      65535 - rawCksumReduce (rawCksum (before ++ toWord 0 ++ after) 0) := rfl
  rw [filled, ipv4Cksum, rawCksum_fill even after (Nat.sub_le _ _)]
  rw [rawCksumReduce_eq_ones (by omega) (by omega) (by omega)]

/-- `rte_ipv4_udptcp_cksum` over the pseudo header and a TCP segment. -/
def tcpCksum (srcAddr dstAddr : List Byte) (proto : Byte) (l4 : List Byte) : Nat :=
  let sum := rawCksumReduce (rawCksum l4 0) + ipv4PhdrCksum srcAddr dstAddr proto l4.length
  65535 - (sum / 65536 + sum % 65536)

/-- `tcp_checksum_ok` of a segment with its own checksum in it. -/
theorem tcpChecksumOk_fill {srcAddr dstAddr before after : List Byte} {proto : Byte}
    (even : before.length % 2 = 0) (short : (before ++ toWord 0 ++ after).length < 65536)
    (nonzero : 0 < rawCksum (before ++ toWord 0 ++ after) 0) :
    tcpChecksumOk srcAddr dstAddr proto
      (before ++ toWord (tcpCksum srcAddr dstAddr proto (before ++ toWord 0 ++ after)) ++ after) =
        true := by
  have sameLength (value : Nat) : (before ++ toWord value ++ after).length =
      (before ++ toWord 0 ++ after).length := by simp
  have bound := rawCksum_le (before ++ toWord 0 ++ after) 0
  have fits : rawCksum (before ++ toWord 0 ++ after) 0 < 2 ^ 32 := by omega
  have folded := rawCksumReduce_mod fits
  have reduced := rawCksumReduce_le (rawCksum (before ++ toWord 0 ++ after) 0)
  unfold tcpChecksumOk
  rw [sameLength]
  unfold tcpCksum
  have pseudo : ipv4PhdrCksum srcAddr dstAddr proto (before ++ toWord 0 ++ after).length ≤ 65535 :=
    rawCksumReduce_le _
  generalize ipv4PhdrCksum srcAddr dstAddr proto (before ++ toWord 0 ++ after).length = phdr
    at pseudo ⊢
  rw [rawCksum_fill even after (Nat.sub_le _ _), rawCksum_eq_add _ phdr, beq_iff_eq]
  exact rawCksumReduce_eq_ones (by omega) (by omega) (by omega)

end DpdkWrapper.Wire
