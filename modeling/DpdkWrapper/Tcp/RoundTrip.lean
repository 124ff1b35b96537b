import DpdkWrapper.Wire.Build
import DpdkWrapper.Tcp.Parsing
import DpdkWrapper.Tcp.Tasks

/-!
# What is built is what is received

A frame of `build_segment` passes every check of `process` and `process_tcp` at the
stack it is addressed to, and comes out as the segment it was built from.  Builder and
parser share no code: the lengths, the data offset, the byte order and both checksums
have to agree.
-/

namespace DpdkWrapper.Wire.TxSegment

variable (seg : TxSegment)

/-! ## Filled-in checksums -/

theorem tcpChecksumOk_tcp (small : seg.totalLength < 65536) :
    tcpChecksumOk (toBytes 4 seg.addr.srcIp.toNat) (toBytes 4 seg.addr.dstIp.toNat) ipprotoTcp
      (seg.tcp seg.tcpChecksum) = true := by
  let before : List Byte := toBytes 2 seg.addr.srcPort.toNat ++ toBytes 2 seg.addr.dstPort.toNat ++
    toBytes 4 seg.seq.toNat ++ toBytes 4 seg.ack.toNat ++ [seg.dataOff] ++ [seg.flags] ++
    toBytes 2 seg.window.toNat
  let after := toBytes 2 0 ++ (seg.options ++ seg.payload)
  have split (cksum : Nat) : seg.tcp cksum = before ++ toWord cksum ++ after := by
    simp only [tcp, tcpHeader, before, after, List.append_assoc]
  have size : before.length = 16 := by simp [before]
  have member : seg.dataOff ∈ before ++ toWord 0 ++ after := by simp [before]
  have nonzero : seg.dataOff ≠ 0 := by
    unfold dataOff
    split
    · decide
    · decide
  rw [tcpChecksum, split, split]
  apply tcpChecksumOk_fill
  · rw [size]
  · rw [List.length_append, List.length_append, size, toWord_length, List.length_append,
      toBytes_length]
    rw [totalLength] at small
    omega
  · exact rawCksum_pos member nonzero 0

/-! ## Reads of the frame -/

theorem tcp_length (cksum : Nat) : (seg.tcp cksum).length + 20 = seg.totalLength := by
  rw [tcp, List.length_append, tcpHeader_length, totalLength]
  omega

theorem frame_length : seg.frame.length = 14 + seg.totalLength := by
  have body := seg.tcp_length seg.tcpChecksum
  rw [frame, List.length_append, List.length_append, ethernet, ethernetHeader_length, ipv4,
    ipv4Header_length]
  omega

theorem frame_ipv4 (small : seg.totalLength < 65536) :
    Ipv4At seg.frame (seg.ipv4 (ipv4Cksum (seg.ipv4 0))) seg.addr.srcIp seg.addr.dstIp ipprotoTcp
      64 0 seg.totalLength :=
  ipv4At _ _ _ _ _ (ethernetHeader_length _ _ _) small _ _

theorem frame_slice (offset count : Nat) :
    slice seg.frame (34 + offset) count = slice (seg.tcp seg.tcpChecksum) offset count :=
  slice_l4 (ethernetHeader_length _ _ _) (ipv4Header_length _ _ _ _ _ _ _) _ offset count

/-- What is read where the TCP header lies. -/
structure TcpAt (frame : List Byte) : Prop where
  srcPort : field frame 34 2 = some seg.addr.srcPort.toNat
  dstPort : field frame 36 2 = some seg.addr.dstPort.toNat
  seq : field frame 38 4 = some seg.seq.toNat
  ack : field frame 42 4 = some seg.ack.toNat
  dataOff : field frame 46 1 = some seg.dataOff.toNat
  flags : field frame 47 1 = some seg.flags.toNat
  window : field frame 48 2 = some seg.window.toNat
  options : slice frame 54 seg.options.length = some seg.options
  payload : slice frame (54 + seg.options.length) seg.payload.length = some seg.payload
  body : slice frame 34 (seg.totalLength - 20) = some (seg.tcp seg.tcpChecksum)

theorem frame_tcp : seg.TcpAt seg.frame := by
  have size := seg.tcp_length seg.tcpChecksum
  constructor
  case options =>
    rw [seg.frame_slice 20, tcp, slice_skip (by simp), tcpHeader_length, Nat.sub_self,
      slice_first rfl]
  case payload =>
    rw [Nat.add_assoc 34 20, seg.frame_slice (20 + seg.options.length), tcp, slice_skip (by simp),
      tcpHeader_length, Nat.add_sub_cancel_left, slice_skip (Nat.le_refl _), Nat.sub_self,
      slice_all rfl]
  case body => rw [seg.frame_slice 0, slice_all (by omega)]
  all_goals
    simp only [field, frame, ethernet, ipv4, tcp, tcpHeader, List.append_assoc, slice_skip,
      slice_first, ethernetHeader_length, ipv4Header_length, toBytes_length,
      List.length_singleton, Nat.le_refl, Nat.reduceLeDiff, Nat.reduceSub, Option.map_some,
      ofBytes_toBytes]
  case dataOff => exact congrArg some (Nat.zero_add _)
  case flags => exact congrArg some (Nat.zero_add _)
  all_goals exact congrArg some (Nat.mod_eq_of_lt (BitVec.isLt _))

end DpdkWrapper.Wire.TxSegment

namespace DpdkWrapper.Tcp

open Wire

/-! ## The checks of the receiver -/

theorem payload_lt_of_totalLength {seg : TxSegment} (small : seg.totalLength < 65536) :
    seg.payload.length < 65536 := by
  rw [TxSegment.totalLength, List.length_append] at small
  omega

/-- The received segment. -/
def received (seg : TxSegment) (small : seg.totalLength < 65536) (source : seg.addr.srcIp ≠ 0) :
    Segment where
  ethSrc := seg.addr.srcMac
  srcIp := seg.addr.srcIp
  srcPort := seg.addr.srcPort
  dstPort := seg.addr.dstPort
  seq := seg.seq
  ack := seg.ack
  flags := seg.flags
  window := seg.window
  payload := seg.payload
  options := seg.options
  payload_lt := payload_lt_of_totalLength small
  srcIp_ne_zero := source

section Decode

variable {k : TcpStack} {seg : TxSegment}

theorem frame_ethSrc (seg : TxSegment) : field seg.frame 6 6 = some seg.addr.srcMac.toNat := by
  apply field_of_slice seg.addr.srcMac.isLt
  simp only [TxSegment.frame, TxSegment.ethernet, ethernetHeader, List.append_assoc, slice_skip,
    slice_first, toBytes_length, Nat.le_refl, Nat.sub_self]

theorem parseSegment_frame (small : seg.totalLength < 65536) (source : seg.addr.srcIp ≠ 0) :
    parseSegment seg.frame 34 (seg.totalLength - 20) (20 + seg.options.length) =
      some (.segment (received seg small source)) := by
  have ipv4 := seg.frame_ipv4 small
  have tcp := seg.frame_tcp
  have srcIp := field_of_slice seg.addr.srcIp.isLt ipv4.srcAddr
  have rest : seg.totalLength - 20 - (20 + seg.options.length) = seg.payload.length := by
    rw [TxSegment.totalLength, List.length_append]
    omega
  have proper : seg.payload.length < 65536 ∧ seg.addr.srcIp ≠ 0 :=
    ⟨(received seg small source).payload_lt, source⟩
  simp only [parseSegment, frame_ethSrc, srcIp, tcp.srcPort, tcp.dstPort, tcp.seq, tcp.ack,
    tcp.flags, tcp.window, Nat.add_sub_cancel_left, tcp.options, rest, ← Nat.add_assoc,
    tcp.payload, Option.bind_eq_bind, Option.bind_some, BitVec.ofNat_toNat, BitVec.setWidth_eq]
  rw [dif_pos proper]
  rfl

/-- The data offset is where the options end. -/
theorem dataOff_eq (seg : TxSegment) : seg.dataOff.toNat / 16 * 4 = 20 + seg.options.length := by
  unfold TxSegment.dataOff TxSegment.options
  split
  · rw [mssBytes_length]
    rfl
  · rfl

theorem tcpChecksumPasses_frame (small : seg.totalLength < 65536) :
    tcpChecksumPasses k seg.frame 34 (seg.totalLength - 20) = some true := by
  have ipv4 := seg.frame_ipv4 small
  unfold tcpChecksumPasses
  split
  · simp only [ipv4.srcAddr, ipv4.dstAddr, ipv4.nextProto, seg.frame_tcp.body,
      Option.bind_eq_bind, Option.bind_some, BitVec.ofNat_toNat, BitVec.setWidth_eq]
    rw [seg.tcpChecksumOk_tcp small]
  · rfl

theorem ipv4ChecksumPasses_frame (small : seg.totalLength < 65536) :
    ipv4ChecksumPasses k seg.frame 20 = some true := by
  unfold ipv4ChecksumPasses
  split
  · rw [(seg.frame_ipv4 small).header, Option.bind_eq_bind, Option.bind_some, TxSegment.ipv4,
      TxSegment.ipv4, ipv4Cksum_header]
    rfl
  · rfl

theorem decodeTcp_frame (small : seg.totalLength < 65536) (source : seg.addr.srcIp ≠ 0) :
    decodeTcp k seg.frame 20 seg.totalLength = some (.segment (received seg small source)) := by
  have longer : 40 + seg.options.length ≤ seg.totalLength := by
    rw [TxSegment.totalLength, List.length_append]
    omega
  unfold decodeTcp
  dsimp only
  rw [if_neg (by omega), seg.frame_tcp.dataOff, Option.bind_eq_bind, Option.bind_some, dataOff_eq,
    if_neg (by omega), tcpChecksumPasses_frame small, Option.bind_eq_bind, Option.bind_some]
  exact parseSegment_frame small source

theorem frame_checked (small : 14 + seg.totalLength < 65536) :
    LengthChecked seg.frame 20 seg.totalLength := by
  have ipv4 := seg.frame_ipv4 (by omega)
  have longer : 40 ≤ seg.totalLength := Nat.le_add_right _ _
  constructor
  · apply field_of_slice (by decide)
    simp only [TxSegment.frame, TxSegment.ethernet, ethernetHeader, List.append_assoc, slice_skip,
      slice_first, toBytes_length, Nat.reduceLeDiff, Nat.reduceSub]
    rfl
  · exact ⟨0x45, ipv4.versionIhl, rfl, rfl⟩
  · exact ipv4.totalLength
  · exact Nat.le_refl 20
  · omega
  · rw [packetLength, seg.frame_length, Nat.mod_eq_of_lt small]

/-- Nothing stops the frame at the stack it is addressed to. -/
theorem decode_frame (small : 14 + seg.totalLength < 65536) (source : seg.addr.srcIp ≠ 0)
    (addressed : seg.addr.dstIp = k.localIp) :
    decode k seg.frame true = some (.segment (received seg (by omega) source)) := by
  have ipv4 := seg.frame_ipv4 (by omega)
  have srcIp := field_of_slice seg.addr.srcIp.isLt ipv4.srcAddr
  have dstIp := field_of_slice seg.addr.dstIp.isLt ipv4.dstAddr
  have nonzero : seg.addr.srcIp.toNat ≠ 0 := fun zero => source (BitVec.eq_of_toNat_eq zero)
  rw [(frame_checked small).decode, decodeChecked, dstIp, Option.bind_eq_bind, Option.bind_some,
    addressed, if_neg (not_not.mpr rfl), srcIp, Option.bind_eq_bind, Option.bind_some,
    if_neg nonzero, ipv4ChecksumPasses_frame (by omega), Option.bind_some,
    if_neg (by decide), ipv4.nextProto, Option.bind_some, if_neg (by decide),
    ipv4.fragmentOffset, Option.bind_some, if_neg (by decide)]
  exact decodeTcp_frame (by omega) source

end Decode

/-! ## The MSS option -/

/-- The two octets of a 16-bit number, put together again. -/
theorem append_octets (value : BitVec 16) :
    BitVec.ofNat 8 (value.toNat / 256 ^ 1) ++ BitVec.ofNat 8 (value.toNat / 256 ^ 0) = value := by
  apply BitVec.eq_of_toNat_eq
  have low : (BitVec.ofNat 8 (value.toNat / 256 ^ 0)).toNat < 2 ^ 8 := BitVec.isLt _
  rw [BitVec.toNat_append, ← Nat.shiftLeft_add_eq_or_of_lt low, Nat.shiftLeft_eq,
    BitVec.toNat_ofNat, BitVec.toNat_ofNat]
  have small := value.isLt
  omega

theorem parseMssOption_mss {high low : Byte} {mss : BitVec 16} (octets : high ++ low = mss)
    (nonzero : mss ≠ 0) : parseMssOption [tcpOptMss, tcpOptMssLen, high, low] = some mss := by
  subst octets
  exact congrArg some (if_pos nonzero)

theorem parseMssOption_options (seg : TxSegment) :
    parseMssOption seg.options =
      some (if seg.mssOption = 0 then defaultPeerMss else seg.mssOption) := by
  unfold TxSegment.options
  by_cases absent : seg.mssOption = 0
  · rw [if_neg (not_not.mpr absent), if_pos absent]
    rfl
  · rw [if_pos absent, if_neg absent, mssBytes]
    simp only [toBytes, List.cons_append, List.nil_append]
    exact parseMssOption_mss (append_octets seg.mssOption) absent

/-! ## The round trip -/

/-- `build_segment` has room for the headers, the option and the payload. -/
theorem buildSegment_fits {room : Nat} (small : room < 65536) {addr : SegmentAddr}
    {seq ack : BitVec 32} {flags : Byte} {window : BitVec 16} {payload : List Byte}
    {mssOption : BitVec 16}
    (fits : 54 + (if mssOption = 0 then 0 else 4) + payload.length ≤ room) :
    buildSegment room true addr seq ack flags window payload mssOption =
      some { addr, seq, ack, flags, window, payload, mssOption } := by
  have headers (used count : Nat) (inside : used + count ≤ 54) :
      mbufAppend room used count = some (used + count) := by
    rw [mbufAppend, if_pos (by omega)]
  have option : appendMssOption room 54 mssOption =
      some (54 + if mssOption = 0 then 0 else 4) := by
    unfold appendMssOption
    split at fits
    · rename_i absent
      rw [if_neg (not_not.mpr absent), if_pos absent]
    · rename_i present
      rw [if_pos present, if_neg present, mbufAppend, if_pos (by omega)]
  have rest : (appendPayload room (54 + if mssOption = 0 then 0 else 4) payload).isSome := by
    unfold appendPayload
    split
    · rfl
    · rw [if_neg (by omega), mbufAppend, if_pos fits]
      rfl
  obtain ⟨used, appended⟩ := Option.isSome_iff_exists.mp rest
  rw [buildSegment, if_pos rfl]
  simp only [headers 0 14 (by decide), headers 14 20 (by decide), headers 34 20 (by decide),
    Option.bind_eq_bind, Option.bind_some, Nat.zero_add, Nat.reduceAdd, option, appended]

/-- Segment codec round trip.  Every segment from a non-zero address that fits in one mbuf,
whose data length is a 16-bit number, is built; and the frame passes every check of
`process` and `process_tcp` at the stack whose address it carries, whether or not that
stack verifies checksums, and is decoded to the fields it was built from.  Its options
say the MSS it was built with, or the default if there was none. -/
theorem segment_round_trip (k : TcpStack) {room : Nat} (small : room < 65536)
    (addr : SegmentAddr) (seq ack : BitVec 32) (flags : Byte) (window : BitVec 16)
    (payload : List Byte) (mssOption : BitVec 16) (source : addr.srcIp ≠ 0)
    (addressed : addr.dstIp = k.localIp)
    (fits : 54 + (if mssOption = 0 then 0 else 4) + payload.length ≤ room) :
    ∃ frame seg, buildFrame room true addr seq ack flags window payload mssOption = some frame ∧
      decode k frame true = some (.segment seg) ∧
      seg.srcIp = addr.srcIp ∧ seg.srcPort = addr.srcPort ∧ seg.dstPort = addr.dstPort ∧
      seg.seq = seq ∧ seg.ack = ack ∧ seg.flags = flags ∧ seg.window = window ∧
      seg.payload = payload ∧
      parseMssOption seg.options = some (if mssOption = 0 then defaultPeerMss else mssOption) := by
  let seg : TxSegment := { addr, seq, ack, flags, window, payload, mssOption }
  have options : seg.options.length = if mssOption = 0 then 0 else 4 := by
    rw [TxSegment.options, ite_not]
    split
    · rfl
    · exact mssBytes_length _
  have short : 14 + seg.totalLength < 65536 := by
    rw [TxSegment.totalLength, List.length_append, options]
    change 14 + (40 + (_ + payload.length)) < 65536
    omega
  refine ⟨seg.frame, received seg (by omega) source, ?_, decode_frame short source addressed, rfl,
    rfl, rfl, rfl, rfl, rfl, rfl, rfl, parseMssOption_options seg⟩
  rw [buildFrame_eq small, buildSegment_fits small fits, Option.map_some]

/-- A SYN-ACK with an odd payload, at a stack that verifies checksums. -/
theorem segment_round_trip_of_syn_ack :
    let k : TcpStack := { singleSlot with verifyChecksums := true }
    let addr : SegmentAddr := ⟨0x020000000002, 0x020000000001, 0x0a000002, 0x0a000001, 4000, 80⟩
    ∃ frame seg, buildFrame 2048 true addr 7 8 (synFlag ||| ackFlag) 1000 [1, 2, 3] 1460 =
        some frame ∧ decode k frame true = some (.segment seg) ∧ seg.payload = [1, 2, 3] ∧
      parseMssOption seg.options = some 1460 := by
  intro k addr
  obtain ⟨frame, seg, built, decoded, _, _, _, _, _, _, _, payload, mss⟩ :=
    segment_round_trip k (by decide : 2048 < 65536) addr 7 8 (synFlag ||| ackFlag) 1000 [1, 2, 3]
      1460 (by decide) rfl (by decide)
  exact ⟨frame, seg, built, decoded, payload, mss⟩

end DpdkWrapper.Tcp
