import DpdkWrapper.Wire.Flips
import DpdkWrapper.Tcp.RoundTrip

/-!
# Corrupted segments are dropped

With checksums verified, one flipped bit behind the IPv4 header is noticed: either the
data offset no longer fits the segment, or the TCP checksum is wrong.  The frame is then
counted and nothing else happens.

A flipped bit changes the sum of the 16-bit words by a power of two.  The data offset is checked
before the checksum, so the proof follows the checks in the order of the source and needs the
checksum only where the header is still in order.
-/

namespace DpdkWrapper.Tcp

open Threads Wire

variable {k : TcpStack} {frame : List Byte} {ipHdrLen ipTotalLen offset bit : Nat}

/-- A verdict by which a frame is dropped for its bytes. -/
def Rejected (verdict : Option Verdict) : Prop :=
  verdict = some (.dropped .malformed) ∨ verdict = some (.dropped .badChecksum)

/-- What a segment has passed that came out of `process_tcp`. -/
theorem decodeTcp_segment {seg : Segment} (verifies : k.verifyChecksums = true)
    (decoded : decodeTcp k frame ipHdrLen ipTotalLen = some (.segment seg)) :
    20 ≤ ipTotalLen - ipHdrLen ∧
      ∃ srcAddr dstAddr proto body, slice frame 26 4 = some srcAddr ∧
        slice frame 30 4 = some dstAddr ∧ field frame 23 1 = some proto ∧
        slice frame (14 + ipHdrLen) (ipTotalLen - ipHdrLen) = some body ∧
        tcpChecksumOk srcAddr dstAddr (BitVec.ofNat 8 proto) body = true := by
  rw [decodeTcp] at decoded
  dsimp only at decoded
  split at decoded
  · cases decoded
  · rename_i long
    refine ⟨Nat.not_lt.mp long, ?_⟩
    obtain ⟨_, _, decoded⟩ := Option.bind_eq_some_iff.mp decoded
    split at decoded
    · cases decoded
    · obtain ⟨checksumOk, passed, decoded⟩ := Option.bind_eq_some_iff.mp decoded
      split at decoded
      · cases decoded
      · rename_i good
        rw [tcpChecksumPasses, if_pos verifies] at passed
        obtain ⟨srcAddr, src, passed⟩ := Option.bind_eq_some_iff.mp passed
        obtain ⟨dstAddr, dst, passed⟩ := Option.bind_eq_some_iff.mp passed
        obtain ⟨proto, protoRead, passed⟩ := Option.bind_eq_some_iff.mp passed
        obtain ⟨body, bodyRead, passed⟩ := Option.bind_eq_some_iff.mp passed
        refine ⟨srcAddr, dstAddr, proto, body, src, dst, protoRead, bodyRead, ?_⟩
        rw [Option.some.injEq] at passed
        rw [passed]
        simpa using good

theorem decodeTcp_flipBit {seg : Segment} (verifies : k.verifyChecksums = true)
    (checked : LengthChecked frame ipHdrLen ipTotalLen)
    (decoded : decodeTcp k frame ipHdrLen ipTotalLen = some (.segment seg))
    (behind : 14 + ipHdrLen ≤ offset) (inside : offset < 14 + ipTotalLen) (inByte : bit < 8) :
    Rejected (decodeTcp k (flipBit frame offset bit) ipHdrLen ipTotalLen) := by
  obtain ⟨long, srcAddr, dstAddr, proto, body, src, dst, protoRead, bodyRead, ok⟩ :=
    decodeTcp_segment verifies decoded
  have headerSize := checked.headerSize
  have fits := checked.fits
  have size := slice_length bodyRead
  have short := Nat.lt_of_le_of_lt checked.totalFits (packetLength_lt frame)
  have noticed : tcpChecksumPasses k (flipBit frame offset bit) (14 + ipHdrLen)
      (ipTotalLen - ipHdrLen) = some false := by
    rw [tcpChecksumPasses, if_pos verifies, slice_flipBit_of_le (by omega),
      slice_flipBit_of_le (by omega), field_flipBit_of_le (by omega), src, dst, protoRead,
      slice_flipBit bodyRead behind]
    simp only [Option.bind_eq_bind, Option.bind_some]
    rw [tcpChecksumOk_flipBit ok (by omega) (by omega) inByte]
  have offsetInside : 14 + ipHdrLen + 12 + 1 ≤ (flipBit frame offset bit).length := by
    rw [flipBit_length]
    omega
  obtain ⟨offsetByte, read⟩ := field_of_le offsetInside
  rw [decodeTcp]
  dsimp only
  rw [if_neg (by omega), read, Option.bind_eq_bind, Option.bind_some]
  split
  · exact .inl rfl
  · rw [noticed]
    exact .inr rfl

/-- The header in front of the flipped bit is read as before. -/
theorem LengthChecked.flipBit (checked : LengthChecked frame ipHdrLen ipTotalLen)
    (behind : 14 + ipHdrLen ≤ offset) :
    LengthChecked (flipBit frame offset bit) ipHdrLen ipTotalLen := by
  have headerSize := checked.headerSize
  refine ⟨?_, ?_, ?_, checked.headerSize, checked.headerFits, ?_⟩
  · rw [field_flipBit_of_le (by omega)]
    exact checked.etherType
  · rw [field_flipBit_of_le (by omega)]
    exact checked.header
  · rw [field_flipBit_of_le (by omega)]
    exact checked.total
  · rw [packetLength, flipBit_length]
    exact checked.totalFits

theorem decodeChecked_flipBit {seg : Segment} (verifies : k.verifyChecksums = true)
    (checked : LengthChecked frame ipHdrLen ipTotalLen)
    (decoded : decodeChecked k ipHdrLen ipTotalLen frame = some (.segment seg))
    (behind : 14 + ipHdrLen ≤ offset) (inside : offset < 14 + ipTotalLen) (inByte : bit < 8) :
    Rejected (decodeChecked k ipHdrLen ipTotalLen (flipBit frame offset bit)) := by
  have headerSize := checked.headerSize
  have header : ipv4ChecksumPasses k (flipBit frame offset bit) ipHdrLen =
      ipv4ChecksumPasses k frame ipHdrLen := by
    rw [ipv4ChecksumPasses, slice_flipBit_of_le behind, ipv4ChecksumPasses]
  rw [decodeChecked] at decoded ⊢
  simp only [Option.bind_eq_bind] at decoded ⊢
  rw [field_flipBit_of_le (by omega)]
  obtain ⟨dstIp, dstRead, decoded⟩ := Option.bind_eq_some_iff.mp decoded
  rw [dstRead, Option.bind_some]
  split at decoded
  · cases decoded
  rw [if_neg ‹_›, field_flipBit_of_le (by omega)]
  obtain ⟨srcIp, srcRead, decoded⟩ := Option.bind_eq_some_iff.mp decoded
  rw [srcRead, Option.bind_some]
  split at decoded
  · cases decoded
  rw [if_neg ‹_›, header]
  obtain ⟨checksumOk, passed, decoded⟩ := Option.bind_eq_some_iff.mp decoded
  rw [passed, Option.bind_some]
  split at decoded
  · cases decoded
  rw [if_neg ‹_›, field_flipBit_of_le (by omega)]
  obtain ⟨proto, protoRead, decoded⟩ := Option.bind_eq_some_iff.mp decoded
  rw [protoRead, Option.bind_some]
  split at decoded
  · cases decoded
  rw [if_neg ‹_›, field_flipBit_of_le (by omega)]
  obtain ⟨fragment, fragmentRead, decoded⟩ := Option.bind_eq_some_iff.mp decoded
  rw [fragmentRead, Option.bind_some]
  split at decoded
  · cases decoded
  rw [if_neg ‹_›]
  exact decodeTcp_flipBit verifies checked decoded behind inside inByte

/-- The segment of a packet that `process` would hand to the TCP state machine has one bit
flipped, in its header, its options or its payload: `process` only counts the packet, as
malformed or for its checksum, and leaves everything else as it was. -/
theorem process_drops_flipped_segment (verifies : k.verifyChecksums = true) {packet : RxPacket}
    {seg : Segment} (decoded : decode k packet.frame packet.contiguous = some (.segment seg))
    {versionIhl : Nat} (header : field packet.frame 14 1 = some versionIhl)
    (total : field packet.frame 16 2 = some ipTotalLen)
    (behind : 14 + versionIhl % 16 * 4 ≤ offset) (inside : offset < 14 + ipTotalLen)
    (inByte : bit < 8) :
    ∃ counter, (counter = .malformed ∨ counter = .badChecksum) ∧
      process k { packet with frame := flipBit packet.frame offset bit } =
        inbound (·.count counter) ∧
      ∀ mem, (process k { packet with frame := flipBit packet.frame offset bit }).run mem =
        ((), { mem with rx := { mem.rx with
          stats := Function.update mem.rx.stats counter (mem.rx.stats counter + 1) } }) := by
  obtain ⟨contiguous, ipHdrLen, totalLen, checked⟩ := checked_of_segment decoded
  obtain ⟨_, read, _, size⟩ := checked.header
  cases header.symm.trans read
  cases total.symm.trans checked.total
  rw [size] at behind
  rw [contiguous, checked.decode] at decoded
  have rejected := decodeChecked_flipBit verifies checked decoded behind inside inByte
  rw [← (checked.flipBit behind).decode, ← contiguous] at rejected
  -- `process` is then one step of the inbound thread, so the run is that step.
  rcases rejected with dropped | dropped
  · have same : process k { packet with frame := flipBit packet.frame offset bit } =
        inbound (·.count .malformed) := by
      rw [process, dropped]
    exact ⟨.malformed, .inl rfl, same, fun mem => by rw [same]; rfl⟩
  · have same : process k { packet with frame := flipBit packet.frame offset bit } =
        inbound (·.count .badChecksum) := by
      rw [process, dropped]
    exact ⟨.badChecksum, .inr rfl, same, fun mem => by rw [same]; rfl⟩

/-- A segment of three bytes, with the last bit of its payload flipped. -/
theorem process_drops_flipped_segment_of_three_bytes :
    let k : TcpStack := { singleSlot with verifyChecksums := true }
    let addr : SegmentAddr := ⟨0x020000000002, 0x020000000001, 0x0a000002, 0x0a000001, 4000, 80⟩
    let sent : TxSegment := ⟨addr, 8, 1, ackFlag, 1000, [1, 2, 3], 0⟩
    ∃ counter, (counter = .malformed ∨ counter = .badChecksum) ∧
      process k ⟨flipBit sent.frame 56 0, true, 0, true⟩ = inbound (·.count counter) := by
  intro k addr sent
  let packet : RxPacket := ⟨sent.frame, true, 0, true⟩
  have checked : LengthChecked packet.frame 20 43 := frame_checked (by decide)
  obtain ⟨versionIhl, header, _, size⟩ := checked.header
  have decoded : decode k packet.frame packet.contiguous =
      some (.segment (received sent (by decide) (by decide))) :=
    decode_frame (by decide) (by decide) rfl
  obtain ⟨counter, which, dropped, _⟩ :=
    process_drops_flipped_segment rfl decoded header checked.total
      (by rw [size]; decide : 14 + versionIhl % 16 * 4 ≤ 56) (by decide) (by decide : 0 < 8)
  exact ⟨counter, which, dropped⟩

end DpdkWrapper.Tcp
