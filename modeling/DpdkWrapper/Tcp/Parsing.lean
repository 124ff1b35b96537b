import DpdkWrapper.Wire.Reads
import DpdkWrapper.Tcp.Decode

/-!
# Frames are read in bounds

No read of `process`, `process_tcp`, `parse_mss_option` or `handle_arp` leaves the
frame.  Once the IPv4 length checks have passed, nothing beyond the IPv4 packet is read,
so whatever pads it has no effect.

`ReadsBelow` says that every read of a function of the frame succeeds and lies below a limit, so
that the function has the same result on the bytes before the limit.  Each check of the source
adds what the next read needs.
-/

namespace DpdkWrapper.Tcp

open Arp Wire

/-! ## After the length checks -/

/-- What `process` does with an IPv4 frame that has passed the length checks. -/
def decodeChecked (k : TcpStack) (ipHdrLen ipTotalLen : Nat) (frame : List Byte) :
    Option Verdict := do
  let dstIp ← field frame 30 4
  if dstIp ≠ k.localIp.toNat then
    some .ignored
  else do
    let srcIp ← field frame 26 4
    if srcIp = 0 then
      some (.dropped .malformed)
    else do
      let checksumOk ← ipv4ChecksumPasses k frame ipHdrLen
      if !checksumOk then
        some (.dropped .badChecksum)
      else do
        let proto ← field frame 23 1
        if proto ≠ 6 then
          some .ignored
        else do
          let fragment ← field frame 20 2
          if fragment % 0x4000 ≠ 0 then
            some (.dropped .ipFragments)
          else
            decodeTcp k frame ipHdrLen ipTotalLen

/-- A frame passes the IPv4 length checks of `process`. -/
structure LengthChecked (frame : List Byte) (ipHdrLen ipTotalLen : Nat) : Prop where
  etherType : field frame 12 2 = some 0x0800
  header : ∃ versionIhl, field frame 14 1 = some versionIhl ∧ versionIhl / 16 = 4 ∧
    versionIhl % 16 * 4 = ipHdrLen
  total : field frame 16 2 = some ipTotalLen
  headerSize : 20 ≤ ipHdrLen
  headerFits : ipHdrLen ≤ ipTotalLen
  totalFits : 14 + ipTotalLen ≤ packetLength frame

theorem packetLength_le (frame : List Byte) : packetLength frame ≤ frame.length :=
  Nat.mod_le _ _

theorem packetLength_lt (frame : List Byte) : packetLength frame < 65536 :=
  Nat.mod_lt _ (by decide)

theorem LengthChecked.fits {frame : List Byte} {ipHdrLen ipTotalLen : Nat}
    (checked : LengthChecked frame ipHdrLen ipTotalLen) : 14 + ipTotalLen ≤ frame.length :=
  Nat.le_trans checked.totalFits (packetLength_le frame)

section Reads

variable {k : TcpStack} {frame : List Byte} {ipHdrLen ipTotalLen l4 l4Len dataOff limit : Nat}

theorem tcpChecksumPasses_reads (fits : limit ≤ frame.length) (header : 34 ≤ limit)
    (body : l4 + l4Len ≤ limit) :
    ReadsBelow limit frame (tcpChecksumPasses k · l4 l4Len) := by
  unfold tcpChecksumPasses
  refine .ite (fun _ => ?_) fun _ => .pure true
  refine .bind (.slice (by omega) fits) fun _ _ => ?_
  refine .bind (.slice (by omega) fits) fun _ _ => ?_
  refine .bind (.field (by omega) fits) fun _ _ => ?_
  exact .bind (.slice body fits) fun _ _ => .pure _

theorem ipv4ChecksumPasses_reads (fits : limit ≤ frame.length) (header : 14 + ipHdrLen ≤ limit) :
    ReadsBelow limit frame (ipv4ChecksumPasses k · ipHdrLen) := by
  unfold ipv4ChecksumPasses
  refine .ite (fun _ => ?_) fun _ => .pure true
  exact .bind (.slice header fits) fun _ _ => .pure _

theorem parseSegment_reads (fits : limit ≤ frame.length) (small : limit < 65536)
    (header : 34 ≤ l4) (options : 20 ≤ dataOff) (payload : dataOff ≤ l4Len)
    (body : l4 + l4Len ≤ limit) {srcIp : Nat} (source : field frame 26 4 = some srcIp)
    (proper : srcIp ≠ 0) : ReadsBelow limit frame (parseSegment · l4 l4Len dataOff) := by
  unfold parseSegment
  refine .bind (.field (by omega) fits) fun _ _ => ?_
  refine .bind (.field (by omega) fits) fun again same => ?_
  refine .bind (.field (by omega) fits) fun _ _ => ?_
  refine .bind (.field (by omega) fits) fun _ _ => ?_
  refine .bind (.field (by omega) fits) fun _ _ => ?_
  refine .bind (.field (by omega) fits) fun _ _ => ?_
  refine .bind (.field (by omega) fits) fun _ _ => ?_
  refine .bind (.field (by omega) fits) fun _ _ => ?_
  refine .bind (.slice (by omega) fits) fun _ _ => ?_
  refine .bind (.slice (by omega) fits) fun payload sliced => ?_
  have short : payload.length < 65536 := by
    rw [slice_length sliced]
    omega
  have nonzero : BitVec.ofNat 32 again ≠ 0 := by
    rw [source, Option.some.injEq] at same
    subst same
    have bound := field_lt source
    intro zero
    have value : (BitVec.ofNat 32 srcIp).toNat = 0 := congrArg BitVec.toNat zero
    rw [BitVec.toNat_ofNat] at value
    omega
  simp only [dif_pos (And.intro short nonzero)]
  exact .pure _

/-- Behind the length checks, decoding reads the IP packet only. -/
theorem decodeTcp_reads (fits : 14 + ipTotalLen ≤ frame.length) (small : 14 + ipTotalLen < 65536)
    (headerSize : 20 ≤ ipHdrLen) (headerFits : ipHdrLen ≤ ipTotalLen) {srcIp : Nat}
    (source : field frame 26 4 = some srcIp) (proper : srcIp ≠ 0) :
    ReadsBelow (14 + ipTotalLen) frame (decodeTcp k · ipHdrLen ipTotalLen) := by
  unfold decodeTcp
  refine .ite (fun _ => .pure _) fun long => ?_
  refine .bind (.field (by omega) fits) fun offsetByte _ => ?_
  refine .ite (fun _ => .pure _) fun inside => ?_
  refine .bind (tcpChecksumPasses_reads fits (by omega) (by omega)) fun _ _ => ?_
  refine .ite (fun _ => .pure _) fun _ => ?_
  rw [not_or, Nat.not_lt, Nat.not_lt] at inside
  exact parseSegment_reads fits small (by omega) inside.1 inside.2 (by omega) source proper

/-- Everything that is read after the length checks lies in the IPv4 packet. -/
theorem LengthChecked.reads (checked : LengthChecked frame ipHdrLen ipTotalLen) :
    ReadsBelow (14 + ipTotalLen) frame (decodeChecked k ipHdrLen ipTotalLen) := by
  have fits := checked.fits
  have headerSize := checked.headerSize
  have headerFits := checked.headerFits
  unfold decodeChecked
  refine .bind (.field (by omega) fits) fun _ _ => ?_
  refine .ite (fun _ => .pure _) fun _ => ?_
  refine .bind (.field (by omega) fits) fun srcIp source => ?_
  refine .ite (fun _ => .pure _) fun proper => ?_
  refine .bind (ipv4ChecksumPasses_reads fits (by omega)) fun _ _ => ?_
  refine .ite (fun _ => .pure _) fun _ => ?_
  refine .bind (.field (by omega) fits) fun _ _ => ?_
  refine .ite (fun _ => .pure _) fun _ => ?_
  refine .bind (.field (by omega) fits) fun _ _ => ?_
  refine .ite (fun _ => .pure _) fun _ => ?_
  have small := Nat.lt_of_le_of_lt checked.totalFits (packetLength_lt frame)
  exact decodeTcp_reads fits small headerSize headerFits source proper

end Reads

/-! ## Whole frames -/

section Frames

variable {k : TcpStack} {frame : List Byte} {ipHdrLen ipTotalLen : Nat}

theorem LengthChecked.decodeIpv4 (checked : LengthChecked frame ipHdrLen ipTotalLen) :
    decodeIpv4 k frame = decodeChecked k ipHdrLen ipTotalLen frame := by
  obtain ⟨versionIhl, read, version, size⟩ := checked.header
  have headerSize := checked.headerSize
  have headerFits := checked.headerFits
  have totalFits := checked.totalFits
  rw [Tcp.decodeIpv4]
  dsimp only
  rw [if_neg (by omega), read, checked.total]
  simp only [Option.bind_eq_bind, Option.bind_some, size]
  rw [if_neg (by omega)]
  rfl

theorem LengthChecked.decode (checked : LengthChecked frame ipHdrLen ipTotalLen) :
    decode k frame true = decodeChecked k ipHdrLen ipTotalLen frame := by
  have totalFits := checked.totalFits
  rw [Tcp.decode, if_neg (by omega), if_neg (by decide), checked.etherType]
  simp only [Option.bind_eq_bind, Option.bind_some]
  rw [if_neg (by decide), if_neg (by decide), checked.decodeIpv4]

/-- What becomes of an IPv4 frame is decided by its length checks. -/
theorem decodeIpv4_cases (long : 14 ≤ packetLength frame)
    (etherType : field frame 12 2 = some 0x0800) :
    decodeIpv4 k frame = some (.dropped .malformed) ∨
      ∃ ipHdrLen ipTotalLen, LengthChecked frame ipHdrLen ipTotalLen := by
  have shorter := packetLength_le frame
  rw [Tcp.decodeIpv4]
  dsimp only
  split
  · exact Or.inl rfl
  · rename_i room
    obtain ⟨versionIhl, header⟩ : ∃ value, field frame 14 1 = some value :=
      field_of_le (by omega)
    obtain ⟨ipTotalLen, total⟩ : ∃ value, field frame 16 2 = some value :=
      field_of_le (by omega)
    rw [header, total]
    simp only [Option.bind_eq_bind, Option.bind_some]
    split
    · exact Or.inl rfl
    · rename_i proper
      push Not at proper
      obtain ⟨version, headerSize, headerFits, totalFits⟩ := proper
      exact Or.inr ⟨_, _, etherType, ⟨versionIhl, header, version, rfl⟩, total, headerSize,
        headerFits, by omega⟩

/-- No check of `process` or `process_tcp` reads outside the frame. -/
theorem decode_isSome (k : TcpStack) (frame : List Byte) (contiguous : Bool) :
    (decode k frame contiguous).isSome := by
  have shorter := packetLength_le frame
  rw [Tcp.decode]
  split
  · rfl
  · rename_i long
    split
    · rfl
    · obtain ⟨etherType, read⟩ : ∃ value, field frame 12 2 = some value :=
        field_of_le (by omega)
      rw [read]
      simp only [Option.bind_eq_bind, Option.bind_some]
      split
      · rfl
      · split
        · rfl
        · rename_i ipv4
          rw [not_not] at ipv4
          subst ipv4
          rcases decodeIpv4_cases (k := k) (by omega) read with dropped | ⟨_, _, checked⟩
          · rw [dropped]
            rfl
          · rw [checked.decodeIpv4]
            exact checked.reads.succeeds

/-- Nor does `handle_arp`. -/
theorem handleArp_reads (frame : List Byte) (localMac : Mac) (localIp : BitVec 32)
    (neighbors : NeighborTable) (room : Nat) (pool : Bool) :
    ReadsBelow (packetLength frame) frame
      (handleArp · (packetLength frame) localMac localIp neighbors room pool) := by
  have fits := packetLength_le frame
  unfold handleArp
  refine .ite (fun _ => .pure _) fun _ => ?_
  refine .bind (.field (by omega) fits) fun _ _ => ?_
  refine .ite (fun _ => .pure _) fun _ => .ite (fun _ => .pure _) fun _ => ?_
  refine .bind (.field (by omega) fits) fun _ _ => ?_
  refine .bind (.field (by omega) fits) fun _ _ => ?_
  refine .bind (.field (by omega) fits) fun _ _ => ?_
  refine .bind (.field (by omega) fits) fun _ _ => ?_
  refine .ite (fun _ => .pure _) fun _ => ?_
  refine .bind (.field (by omega) fits) fun _ _ => ?_
  refine .bind (.map (.field (by omega) fits) _) fun _ _ => ?_
  refine .bind (.map (.field (by omega) fits) _) fun _ _ => ?_
  refine .bind (.map (.field (by omega) fits) _) fun _ _ => ?_
  exact .ite (fun _ => .pure _) fun _ => .pure _

theorem parseSegment_payload {l4 l4Len dataOff : Nat} {seg : Segment}
    (parsed : parseSegment frame l4 l4Len dataOff = some (.segment seg)) :
    slice frame (l4 + dataOff) (l4Len - dataOff) = some seg.payload := by
  unfold parseSegment at parsed
  simp only [Option.bind_eq_bind, Option.bind_eq_some_iff] at parsed
  obtain ⟨_, _, _, _, _, _, _, _, _, _, _, _, _, _, _, _, _, _, payload, sliced, parsed⟩ := parsed
  split at parsed
  · cases parsed
    exact sliced
  · cases parsed

/-- The payload is a part of the frame that ends with the IP packet. -/
theorem decodeTcp_payload (headerFits : ipHdrLen ≤ ipTotalLen) {seg : Segment}
    (decoded : decodeTcp k frame ipHdrLen ipTotalLen = some (.segment seg)) :
    ∃ offset, slice frame offset seg.payload.length = some seg.payload ∧
      offset + seg.payload.length = 14 + ipTotalLen := by
  unfold decodeTcp at decoded
  dsimp only at decoded
  split at decoded
  · cases decoded
  · obtain ⟨offsetByte, _, decoded⟩ := Option.bind_eq_some_iff.mp decoded
    split at decoded
    · cases decoded
    · rename_i inside
      obtain ⟨_, _, decoded⟩ := Option.bind_eq_some_iff.mp decoded
      split at decoded
      · cases decoded
      · have sliced := parseSegment_payload decoded
        have size := slice_length sliced
        rw [size]
        exact ⟨_, sliced, by omega⟩

/-- The payload of a segment lies in the frame, in front of the end of the IPv4 packet. -/
theorem LengthChecked.payload (checked : LengthChecked frame ipHdrLen ipTotalLen)
    {seg : Segment} (decoded : Tcp.decode k frame true = some (.segment seg)) :
    ∃ offset, slice frame offset seg.payload.length = some seg.payload ∧
      offset + seg.payload.length = 14 + ipTotalLen := by
  rw [checked.decode, decodeChecked] at decoded
  obtain ⟨_, _, decoded⟩ := Option.bind_eq_some_iff.mp decoded
  split at decoded
  · cases decoded
  · obtain ⟨_, _, decoded⟩ := Option.bind_eq_some_iff.mp decoded
    split at decoded
    · cases decoded
    · obtain ⟨_, _, decoded⟩ := Option.bind_eq_some_iff.mp decoded
      split at decoded
      · cases decoded
      · obtain ⟨_, _, decoded⟩ := Option.bind_eq_some_iff.mp decoded
        split at decoded
        · cases decoded
        · obtain ⟨_, _, decoded⟩ := Option.bind_eq_some_iff.mp decoded
          split at decoded
          · cases decoded
          · exact decodeTcp_payload checked.headerFits decoded

/-- Only a frame that passes the length checks is decoded to a segment. -/
theorem checked_of_segment {contiguous : Bool} {seg : Segment}
    (decoded : Tcp.decode k frame contiguous = some (.segment seg)) :
    contiguous = true ∧ ∃ ipHdrLen ipTotalLen, LengthChecked frame ipHdrLen ipTotalLen := by
  rw [Tcp.decode] at decoded
  split at decoded
  · cases decoded
  · rename_i long
    cases contiguous with
    | false => cases decoded
    | true =>
        refine ⟨rfl, ?_⟩
        obtain ⟨etherType, read, decoded⟩ := Option.bind_eq_some_iff.mp decoded
        split at decoded
        · cases decoded
        · split at decoded
          · cases decoded
          · rename_i ipv4
            rw [not_not] at ipv4
            subst ipv4
            rcases decodeIpv4_cases (k := k) (by omega) read with dropped | checked
            · rw [dropped] at decoded
              cases decoded
            · exact checked

/-- Two frames that pass the length checks and agree up to the end of the IPv4 packet
are decoded alike. -/
theorem LengthChecked.decode_eq {frame' : List Byte} {ipHdrLen' ipTotalLen' : Nat}
    (checked : LengthChecked frame ipHdrLen ipTotalLen)
    (checked' : LengthChecked frame' ipHdrLen' ipTotalLen')
    (agree : frame'.take (14 + ipTotalLen) = frame.take (14 + ipTotalLen))
    (contiguous : Bool) : Tcp.decode k frame' contiguous = Tcp.decode k frame contiguous := by
  have totalFits := checked.totalFits
  have totalFits' := checked'.totalFits
  have headerSize := checked.headerSize
  have headerFits := checked.headerFits
  have fits' : 14 + ipTotalLen ≤ frame'.length := by
    have length := congrArg List.length agree
    rw [List.length_take, List.length_take, Nat.min_eq_left checked.fits] at length
    omega
  have same : ∀ offset count, offset + count ≤ 14 + ipTotalLen →
      field frame' offset count = field frame offset count := by
    intro offset count below
    rw [← field_take below fits', agree, field_take below checked.fits]
  have sameTotal : ipTotalLen' = ipTotalLen := by
    have read := checked'.total
    rw [same 16 2 (by omega), checked.total] at read
    exact (Option.some.inj read).symm
  have sameHeader : ipHdrLen' = ipHdrLen := by
    obtain ⟨versionIhl, read, _, size⟩ := checked.header
    obtain ⟨versionIhl', read', _, size'⟩ := checked'.header
    rw [same 14 1 (by omega), read] at read'
    rw [← size, ← size', Option.some.inj read']
  subst sameTotal sameHeader
  cases contiguous with
  | false =>
      rw [Tcp.decode, if_neg (by omega), if_pos (by decide), Tcp.decode, if_neg (by omega),
        if_pos (by decide)]
  | true =>
      calc
        Tcp.decode k frame' true = decodeChecked k ipHdrLen' ipTotalLen' frame' := checked'.decode
        _ = decodeChecked k ipHdrLen' ipTotalLen' (frame'.take (14 + ipTotalLen')) :=
          checked'.reads.blind.symm
        _ = decodeChecked k ipHdrLen' ipTotalLen' (frame.take (14 + ipTotalLen')) := by rw [agree]
        _ = decodeChecked k ipHdrLen' ipTotalLen' frame := checked.reads.blind
        _ = Tcp.decode k frame true := checked.decode.symm

end Frames

end DpdkWrapper.Tcp
