import DpdkWrapper.Arp.Neighbors
import DpdkWrapper.Tcp.Parsing
import DpdkWrapper.Wire.Build

/-!
# ARP frames

`arpBody` names what a well-formed ARP frame for IPv4 over Ethernet carries.  The frame
that `build_arp` lays out is one, and carries what it was built from.
-/

namespace DpdkWrapper.Arp

open Wire
open DpdkWrapper.Tcp (packetLength packetLength_le)

/-! ## Received frames -/

/-- The fields of an ARP packet that `handle_arp` reads. -/
structure ArpBody where
  opcode : Nat
  sha : Mac
  sip : BitVec 32
  tip : BitVec 32
  deriving DecidableEq, Repr

/-- The ARP packet in a well-formed frame: of EtherType ARP, long enough, and for IPv4
over Ethernet. -/
def arpBody (frame : List Byte) : Option ArpBody :=
  if packetLength frame < 14 + 28 then
    none
  else do
    let etherType ← field frame 12 2
    let hardware ← field frame 14 2
    let protocol ← field frame 16 2
    let hlen ← field frame 18 1
    let plen ← field frame 19 1
    let opcode ← field frame 20 2
    let sha ← field frame 22 6
    let sip ← field frame 28 4
    let tip ← field frame 38 4
    if etherType = 0x0806 ∧ hardware = 1 ∧ protocol = 0x0800 ∧ hlen = 6 ∧ plen = 4 then
      some ⟨opcode, BitVec.ofNat 48 sha, BitVec.ofNat 32 sip, BitVec.ofNat 32 tip⟩
    else
      none

/-! ## Built frames -/

/-- RTE_ETHER_TYPE_ARP. -/
def etherTypeArp : Nat := 0x0806

/-- `fill_arp`. -/
def fillArp (opcode : Nat) (sha : Mac) (sip : BitVec 32) (tha : Mac) (tip : BitVec 32) :
    List Byte :=
  toBytes 2 1 ++ (toBytes 2 etherTypeIpv4 ++ ([6] ++ ([4] ++ (toBytes 2 opcode ++
    (toBytes 6 sha.toNat ++ (toBytes 4 sip.toNat ++ (toBytes 6 tha.toNat ++
      toBytes 4 tip.toNat)))))))

/-- The bytes of an ARP frame. -/
def frameBytes (frame : ArpFrame) : List Byte :=
  ethernetHeader frame.ethDst frame.sha etherTypeArp ++
    fillArp frame.opcode frame.sha frame.sip frame.tha frame.tip

/-- `build_arp`, with the bytes that it leaves in the buffer. -/
def layArp (room : Nat) (pool : Bool) (ethDst : Mac) (opcode : Nat) (sha : Mac)
    (sip : BitVec 32) (tha : Mac) (tip : BitVec 32) : Option (List Byte) :=
  if pool then do
    let frame ← buildEthernetHeader room [] ethDst sha etherTypeArp
    append room frame (fillArp opcode sha sip tha tip)
  else
    none

/-- The pool yields a buffer that an ARP frame fits into. -/
def Yields (room : Nat) (pool : Bool) : Prop :=
  pool = true ∧ 14 + 28 ≤ room

theorem buildArp_isSome {room : Nat} {pool : Bool} {ethDst : Mac} {opcode : Nat} {sha : Mac}
    {sip : BitVec 32} {tha : Mac} {tip : BitVec 32} :
    (buildArp room pool ethDst opcode sha sip tha tip).isSome ↔ Yields room pool := by
  unfold buildArp Yields mbufAppend
  cases pool with
  | false => exact iff_of_false Bool.false_ne_true fun yields => Bool.false_ne_true yields.1
  | true =>
      by_cases first : 0 + 14 ≤ room
      · by_cases second : 14 + 28 ≤ room
        · simp [first, second]
        · simp [first, second]
      · have short : ¬ 14 + 28 ≤ room := by omega
        simp [first, short]

theorem buildArp_eq_some {room : Nat} {pool : Bool} (yields : Yields room pool) (ethDst : Mac)
    (opcode : Nat) (sha : Mac) (sip : BitVec 32) (tha : Mac) (tip : BitVec 32) :
    buildArp room pool ethDst opcode sha sip tha tip =
      some { ethDst, opcode, sha, sip, tha, tip } := by
  obtain ⟨rfl, fits⟩ := yields
  have header : 0 + 14 ≤ room := by omega
  simp [buildArp, mbufAppend, header, fits]

@[simp]
theorem fillArp_length (opcode : Nat) (sha : Mac) (sip : BitVec 32) (tha : Mac)
    (tip : BitVec 32) : (fillArp opcode sha sip tha tip).length = 28 := by
  simp [fillArp]

@[simp]
theorem frameBytes_length (frame : ArpFrame) : (frameBytes frame).length = 42 := by
  simp [frameBytes]

/-- The bytes laid out are those of the frame built. -/
theorem layArp_eq (room : Nat) (pool : Bool) (ethDst : Mac) (opcode : Nat) (sha : Mac)
    (sip : BitVec 32) (tha : Mac) (tip : BitVec 32) :
    layArp room pool ethDst opcode sha sip tha tip =
      (buildArp room pool ethDst opcode sha sip tha tip).map frameBytes := by
  unfold layArp buildArp buildEthernetHeader append mbufAppend
  cases pool with
  | false => rfl
  | true =>
      by_cases first : 0 + 14 ≤ room
      · by_cases second : 14 + 28 ≤ room
        · simp [first, second, frameBytes]
        · simp [first, second]
      · simp [first]

/-- A built frame is well formed and carries the fields it was built from. -/
theorem arpBody_frameBytes (frame : ArpFrame) (small : frame.opcode < 65536) :
    arpBody (frameBytes frame) = some ⟨frame.opcode, frame.sha, frame.sip, frame.tip⟩ := by
  have bytes : frameBytes frame = ethernetHeader frame.ethDst frame.sha etherTypeArp ++
      fillArp frame.opcode frame.sha frame.sip frame.tha frame.tip := rfl
  simp only [ethernetHeader, fillArp, List.append_assoc] at bytes
  have etherType : field (frameBytes frame) 12 2 = some 0x0806 := by
    apply field_of_slice (by decide)
    simp only [bytes, slice_skip, slice_first, toBytes_length, Nat.reduceLeDiff, Nat.reduceSub,
      etherTypeArp]
  have hardware : field (frameBytes frame) 14 2 = some 1 := by
    apply field_of_slice (by decide)
    simp only [bytes, slice_skip, slice_first, toBytes_length, Nat.reduceLeDiff, Nat.reduceSub]
  have protocol : field (frameBytes frame) 16 2 = some 0x0800 := by
    apply field_of_slice (by decide)
    simp only [bytes, slice_skip, slice_first, toBytes_length, Nat.reduceLeDiff, Nat.reduceSub,
      etherTypeIpv4]
  have hlen : field (frameBytes frame) 18 1 = some 6 := by
    simp only [field, bytes, slice_skip, slice_first, toBytes_length, List.length_singleton,
      Nat.reduceLeDiff, Nat.reduceSub]
    rfl
  have plen : field (frameBytes frame) 19 1 = some 4 := by
    simp only [field, bytes, slice_skip, slice_first, toBytes_length, List.length_singleton,
      Nat.reduceLeDiff, Nat.reduceSub]
    rfl
  have opcode : field (frameBytes frame) 20 2 = some frame.opcode := by
    apply field_of_slice small
    simp only [bytes, slice_skip, slice_first, toBytes_length, List.length_singleton,
      Nat.reduceLeDiff, Nat.reduceSub]
  have sha : field (frameBytes frame) 22 6 = some frame.sha.toNat := by
    apply field_of_slice frame.sha.isLt
    simp only [bytes, slice_skip, slice_first, toBytes_length, List.length_singleton,
      Nat.reduceLeDiff, Nat.reduceSub]
  have sip : field (frameBytes frame) 28 4 = some frame.sip.toNat := by
    apply field_of_slice frame.sip.isLt
    simp only [bytes, slice_skip, slice_first, toBytes_length, List.length_singleton,
      Nat.reduceLeDiff, Nat.reduceSub]
  have tip : field (frameBytes frame) 38 4 = some frame.tip.toNat := by
    apply field_of_slice frame.tip.isLt
    simp only [bytes, slice_skip, slice_all, toBytes_length, List.length_singleton,
      Nat.reduceLeDiff, Nat.reduceSub]
  have size : packetLength (frameBytes frame) = 42 := by
    rw [packetLength, frameBytes_length]
  rw [arpBody, size, etherType, hardware, protocol, hlen, plen, opcode, sha, sip, tip]
  simp

end DpdkWrapper.Arp
