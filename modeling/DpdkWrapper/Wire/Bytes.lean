import Mathlib.Data.List.Basic
import Mathlib.Tactic.Ring

/-!
# Bytes of a frame

Frames are byte lists.  Every read names its offset and length and fails when
it would leave the frame, so that a missing bounds check shows up as a failed
read instead of a made-up byte.  Multi-byte fields are in network order; the
Internet checksum adds 16-bit words in the byte order of the machine, which is
little-endian on the targets of this library.
-/

namespace DpdkWrapper.Wire

/-- One octet. -/
abbrev Byte := BitVec 8

/-- An Ethernet address, most significant octet first. -/
abbrev Mac := BitVec 48

/-- The number that a byte string denotes in network order. -/
def ofBytes (bytes : List Byte) : Nat :=
  bytes.foldl (fun value byte => value * 256 + byte.toNat) 0

/-- The last `count` octets of a number, in network order. -/
def toBytes : Nat → Nat → List Byte
  | 0, _ => []
  | count + 1, value => BitVec.ofNat 8 (value / 256 ^ count) :: toBytes count value

/-- The `count` bytes from `offset` on, if the frame has them. -/
def slice (frame : List Byte) (offset count : Nat) : Option (List Byte) :=
  if offset + count ≤ frame.length then some ((frame.drop offset).take count) else none

/-- A network-order field of `count` bytes at `offset`. -/
def field (frame : List Byte) (offset count : Nat) : Option Nat :=
  (slice frame offset count).map ofBytes

theorem ofBytes_append_singleton (bytes : List Byte) (byte : Byte) :
    ofBytes (bytes ++ [byte]) = ofBytes bytes * 256 + byte.toNat := by
  simp [ofBytes]

@[simp]
theorem toBytes_length (count value : Nat) : (toBytes count value).length = count := by
  induction count with
  | zero => rfl
  | succ count ih => simp [toBytes, ih]

/-- Splitting off the last octet. -/
theorem toBytes_succ_append (count value : Nat) :
    toBytes (count + 1) value = toBytes count (value / 256) ++ [BitVec.ofNat 8 value] := by
  induction count with
  | zero => simp [toBytes]
  | succ count ih =>
      rw [toBytes, ih, toBytes]
      simp only [List.cons_append, List.cons.injEq, and_true]
      rw [Nat.div_div_eq_div_mul, Nat.pow_succ, Nat.mul_comm]

/-- Reading back a number written in `count` octets. -/
@[simp]
theorem ofBytes_toBytes (count value : Nat) :
    ofBytes (toBytes count value) = value % 256 ^ count := by
  induction count generalizing value with
  | zero => simp [toBytes, ofBytes, Nat.mod_one]
  | succ count ih =>
      have last : (BitVec.ofNat 8 value).toNat = value % 256 := by simp
      rw [toBytes_succ_append, ofBytes_append_singleton, ih, last, Nat.pow_succ,
        Nat.mul_comm (256 ^ count) 256, Nat.mod_mul, Nat.add_comm, Nat.mul_comm]

theorem slice_length {frame bytes : List Byte} {offset count : Nat}
    (read : slice frame offset count = some bytes) : bytes.length = count := by
  unfold slice at read
  split at read
  · rename_i inside
    cases read
    simp
    omega
  · contradiction

/-! ## The Internet checksum -/

/-- `__rte_raw_cksum`: the running sum over 16-bit words in machine order; an
odd last byte counts as a word padded with zero. -/
def rawCksum : List Byte → Nat → Nat
  | [], sum => sum
  | [last], sum => sum + last.toNat
  | low :: high :: rest, sum => rawCksum rest (sum + (low.toNat + 256 * high.toNat))

/-- `__rte_raw_cksum_reduce`: fold the carries of a 32-bit sum twice. -/
def rawCksumReduce (sum : Nat) : Nat :=
  let once := sum / 65536 + sum % 65536
  let twice := once / 65536 + once % 65536
  twice % 65536

/-- `rte_ipv4_cksum` of a header given by its bytes. -/
def ipv4Cksum (header : List Byte) : Nat :=
  65535 - rawCksumReduce (rawCksum header 0)

/-- `rte_ipv4_phdr_cksum`: the sum over the pseudo header. -/
def ipv4PhdrCksum (srcAddr dstAddr : List Byte) (proto : Byte) (l4Len : Nat) : Nat :=
  rawCksumReduce (rawCksum (srcAddr ++ dstAddr ++ [0, proto] ++ toBytes 2 l4Len) 0)

/-- `tcp_checksum_ok`: the sum over pseudo header and segment, checksum field
included, comes out all ones. -/
def tcpChecksumOk (srcAddr dstAddr : List Byte) (proto : Byte) (l4 : List Byte) : Bool :=
  rawCksumReduce (rawCksum l4 (ipv4PhdrCksum srcAddr dstAddr proto l4.length)) == 0xffff

end DpdkWrapper.Wire
