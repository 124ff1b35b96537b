import DpdkWrapper.Wire.Checksum
import DpdkWrapper.Wire.Reads

/-!
# The bytes of an outgoing segment

`build_segment` appends one header after the other, patches the data offset when there
is an option, and fills in the total length and the two checksums last.  The model
follows it byte by byte; `TxSegment.frame` says what comes out.
-/

namespace DpdkWrapper.Wire

/-! ## Buffers -/

/-- `packet::append` of bytes that are filled in at once. -/
def append (room : Nat) (frame bytes : List Byte) : Option (List Byte) :=
  (mbufAppend room frame.length bytes.length).map fun _ => frame ++ bytes

/-- A store through a pointer into the frame. -/
def put (frame : List Byte) (offset : Nat) (bytes : List Byte) : List Byte :=
  frame.take offset ++ bytes ++ frame.drop (offset + bytes.length)

/-- A read beyond the first part. -/
theorem slice_skip {first : List Byte} {offset : Nat} (beyond : first.length ≤ offset)
    (rest : List Byte) (count : Nat) :
    slice (first ++ rest) offset count = slice rest (offset - first.length) count := by
  unfold slice
  rw [List.drop_append, List.drop_eq_nil_of_le beyond, List.nil_append, List.length_append]
  congr 1
  rw [eq_iff_iff]
  omega

/-- A read of the whole first part. -/
theorem slice_first {first : List Byte} {count : Nat} (size : first.length = count)
    (rest : List Byte) : slice (first ++ rest) 0 count = some first := by
  subst size
  rw [slice_of_le, List.drop_zero, List.take_left]
  rw [List.length_append, Nat.zero_add]
  exact Nat.le_add_right _ _

theorem slice_all {bytes : List Byte} {count : Nat} (size : bytes.length = count) :
    slice bytes 0 count = some bytes := by
  have whole := slice_first size []
  rwa [List.append_nil] at whole

/-- A number that was written there. -/
theorem field_of_slice {frame : List Byte} {offset count value : Nat} (small : value < 256 ^ count)
    (read : slice frame offset count = some (toBytes count value)) :
    field frame offset count = some value := by
  rw [field, read, Option.map_some, ofBytes_toBytes, Nat.mod_eq_of_lt small]

/-- A store beyond the first part. -/
theorem put_skip {first : List Byte} {offset : Nat} (beyond : first.length ≤ offset)
    (rest bytes : List Byte) :
    put (first ++ rest) offset bytes = first ++ put rest (offset - first.length) bytes := by
  have further : first.length ≤ offset + bytes.length := Nat.le_add_right_of_le beyond
  rw [put, List.take_append, List.take_of_length_le beyond, List.drop_append,
    List.drop_eq_nil_of_le further, List.nil_append, Nat.sub_add_comm beyond, put]
  simp only [List.append_assoc]

/-- A store over the whole first part. -/
theorem put_first {first bytes : List Byte} (size : bytes.length = first.length)
    (rest : List Byte) : put (first ++ rest) 0 bytes = bytes ++ rest := by
  rw [put, List.take_zero, List.nil_append, Nat.zero_add, size, List.drop_left]

/-! ## Headers -/

/-- `RTE_ETHER_TYPE_IPV4`. -/
def etherTypeIpv4 : Nat := 0x0800

/-- `IPPROTO_TCP`. -/
def ipprotoTcp : Byte := 6

/-- `rte_ether_hdr`. -/
def ethernetHeader (dst src : Mac) (etherType : Nat) : List Byte :=
  toBytes 6 dst.toNat ++ (toBytes 6 src.toNat ++ toBytes 2 etherType)

/-- `rte_ipv4_hdr` of version 4 and 20 bytes, without identification and not a fragment.
The checksum is in the byte order of the machine. -/
def ipv4Header (srcAddr dstAddr : BitVec 32) (nextProto ttl tos : Byte)
    (totalLength hdrChecksum : Nat) : List Byte :=
  [0x45] ++ ([tos] ++ (toBytes 2 totalLength ++ (toBytes 2 0 ++ (toBytes 2 0 ++ ([ttl] ++
    ([nextProto] ++ (toWord hdrChecksum ++ (toBytes 4 srcAddr.toNat ++
      toBytes 4 dstAddr.toNat))))))))

/-- `rte_tcp_hdr`. -/
def tcpHeader (srcPort dstPort : BitVec 16) (seq ack : BitVec 32) (dataOff flags : Byte)
    (window : BitVec 16) (cksum : Nat) : List Byte :=
  toBytes 2 srcPort.toNat ++ (toBytes 2 dstPort.toNat ++ (toBytes 4 seq.toNat ++
    (toBytes 4 ack.toNat ++ ([dataOff] ++ ([flags] ++ (toBytes 2 window.toNat ++
      (toWord cksum ++ toBytes 2 0)))))))

/-- `build_ethernet_header`. -/
def buildEthernetHeader (room : Nat) (frame : List Byte) (dst src : Mac) (etherType : Nat) :
    Option (List Byte) :=
  append room frame (ethernetHeader dst src etherType)

/-- `build_ipv4_header`: all but the total length and the checksum.  The callers leave
the time to live and the type of service at 64 and 0. -/
def buildIpv4Header (room : Nat) (frame : List Byte) (srcAddr dstAddr : BitVec 32)
    (nextProto ttl tos : Byte) : Option (List Byte) :=
  append room frame (ipv4Header srcAddr dstAddr nextProto ttl tos 0 0)

/-- `build_tcp_header`: all but the checksum. -/
def buildTcpHeader (room : Nat) (frame : List Byte) (srcPort dstPort : BitVec 16)
    (seq ack : BitVec 32) (flags : Byte) (window : BitVec 16) : Option (List Byte) :=
  append room frame (tcpHeader srcPort dstPort seq ack 0x50 flags window 0)

/-- The MSS option as `build_segment` writes it. -/
def mssBytes (mssOption : BitVec 16) : List Byte :=
  [tcpOptMss, tcpOptMssLen] ++ toBytes 2 mssOption.toNat

/-- The option, and the data offset patched for it. -/
def buildMssOption (room : Nat) (frame : List Byte) (tcp : Nat) (mssOption : BitVec 16) :
    Option (List Byte) :=
  if mssOption ≠ 0 then do
    let frame ← append room frame (mssBytes mssOption)
    some (put frame (tcp + 12) [0x60])
  else
    some frame

/-- `packet::append` of the payload, unless it is empty. -/
def buildPayload (room : Nat) (frame payload : List Byte) : Option (List Byte) :=
  if payload.isEmpty then some frame
  else if payload.length > 65535 then none
  else append room frame payload

/-- `finalize_ipv4_header`; the header starts at offset `ip`. -/
def finalizeIpv4Header (frame : List Byte) (ip : Nat) : Option (List Byte) := do
  let frame := put frame (ip + 2) (toBytes 2 (frame.length - ip))
  let frame := put frame (ip + 10) (toWord 0)
  let versionIhl ← field frame ip 1
  let header ← slice frame ip (versionIhl % 16 * 4)
  some (put frame (ip + 10) (toWord (ipv4Cksum header)))

/-- `rte_ipv4_udptcp_cksum`, for a header and a TCP segment inside the frame. -/
def ipv4UdptcpCksum (frame : List Byte) (ip l4 : Nat) : Option Nat := do
  let versionIhl ← field frame ip 1
  let ipHdrLen := versionIhl % 16 * 4
  let ipTotalLen ← field frame (ip + 2) 2
  if ipTotalLen < ipHdrLen then
    some 0xffff
  else do
    let srcAddr ← slice frame (ip + 12) 4
    let dstAddr ← slice frame (ip + 16) 4
    let proto ← field frame (ip + 9) 1
    let body ← slice frame l4 (ipTotalLen - ipHdrLen)
    some (tcpCksum srcAddr dstAddr (BitVec.ofNat 8 proto) body)

/-- `finalize_tcp_header`; the header starts at offset `tcp`. -/
def finalizeTcpHeader (frame : List Byte) (ip tcp : Nat) : Option (List Byte) := do
  let frame := put frame (tcp + 16) (toWord 0)
  let cksum ← ipv4UdptcpCksum frame ip tcp
  some (put frame (tcp + 16) (toWord cksum))

/-- `build_segment`, byte by byte. -/
def buildFrame (room : Nat) (pool : Bool) (addr : SegmentAddr) (seq ack : BitVec 32)
    (flags : Byte) (window : BitVec 16) (payload : List Byte) (mssOption : BitVec 16) :
    Option (List Byte) :=
  if pool then do
    let frame ← buildEthernetHeader room [] addr.dstMac addr.srcMac etherTypeIpv4
    let ip := frame.length
    let frame ← buildIpv4Header room frame addr.srcIp addr.dstIp ipprotoTcp 64 0
    let tcp := frame.length
    let frame ← buildTcpHeader room frame addr.srcPort addr.dstPort seq ack flags window
    let frame ← buildMssOption room frame tcp mssOption
    let frame ← buildPayload room frame payload
    let frame ← finalizeIpv4Header frame ip
    finalizeTcpHeader frame ip tcp
  else
    none

/-! ## Parts of a frame -/

section Parts

variable {ethernet header : List Byte} (size : ethernet.length = 14) (ipSize : header.length = 20)
include size ipSize

/-- A read behind the IPv4 header. -/
theorem slice_l4 (l4 : List Byte) (offset count : Nat) :
    slice (ethernet ++ (header ++ l4)) (34 + offset) count = slice l4 offset count := by
  rw [slice_skip (by omega), slice_skip (by omega), size, ipSize]
  congr 1
  omega

/-- A store behind the IPv4 header. -/
theorem put_l4 (l4 : List Byte) (offset : Nat) (bytes : List Byte) :
    put (ethernet ++ (header ++ l4)) (34 + offset) bytes =
      ethernet ++ (header ++ put l4 offset bytes) := by
  rw [put_skip (by omega), put_skip (by omega), size, ipSize]
  congr 3
  omega

end Parts

section Headers

variable (srcAddr dstAddr : BitVec 32) (nextProto ttl tos : Byte) (totalLength hdrChecksum : Nat)
  (srcPort dstPort : BitVec 16) (seq ack : BitVec 32) (dataOff flags : Byte) (window : BitVec 16)
  (cksum new : Nat) (rest : List Byte)

@[simp]
theorem ethernetHeader_length (dst src : Mac) (etherType : Nat) :
    (ethernetHeader dst src etherType).length = 14 := by
  simp [ethernetHeader]

@[simp]
theorem ipv4Header_length :
    (ipv4Header srcAddr dstAddr nextProto ttl tos totalLength hdrChecksum).length = 20 := by
  simp [ipv4Header]

@[simp]
theorem tcpHeader_length :
    (tcpHeader srcPort dstPort seq ack dataOff flags window cksum).length = 20 := by
  simp [tcpHeader]

@[simp]
theorem mssBytes_length (mssOption : BitVec 16) : (mssBytes mssOption).length = 4 := by
  simp [mssBytes]

theorem put_totalLength :
    put (ipv4Header srcAddr dstAddr nextProto ttl tos totalLength hdrChecksum ++ rest) 2
        (toBytes 2 new) =
      ipv4Header srcAddr dstAddr nextProto ttl tos new hdrChecksum ++ rest := by
  simp only [ipv4Header, List.append_assoc, put_skip, put_first, List.length_singleton,
    toBytes_length, Nat.reduceSub, Nat.reduceLeDiff]

theorem put_hdrChecksum :
    put (ipv4Header srcAddr dstAddr nextProto ttl tos totalLength hdrChecksum ++ rest) 10
        (toWord new) =
      ipv4Header srcAddr dstAddr nextProto ttl tos totalLength new ++ rest := by
  simp only [ipv4Header, List.append_assoc, put_skip, put_first, List.length_singleton,
    toBytes_length, toWord_length, Nat.reduceSub, Nat.reduceLeDiff]

theorem put_dataOff (new : Byte) :
    put (tcpHeader srcPort dstPort seq ack dataOff flags window cksum ++ rest) 12 [new] =
      tcpHeader srcPort dstPort seq ack new flags window cksum ++ rest := by
  simp only [tcpHeader, List.append_assoc, put_skip, put_first, List.length_singleton,
    toBytes_length, Nat.reduceSub, Nat.reduceLeDiff]

theorem put_cksum :
    put (tcpHeader srcPort dstPort seq ack dataOff flags window cksum ++ rest) 16 (toWord new) =
      tcpHeader srcPort dstPort seq ack dataOff flags window new ++ rest := by
  simp only [tcpHeader, List.append_assoc, put_skip, put_first, List.length_singleton,
    toBytes_length, toWord_length, Nat.reduceSub, Nat.reduceLeDiff]

/-- The checksum that is filled into an IPv4 header verifies. -/
theorem ipv4Cksum_header :
    ipv4Cksum (ipv4Header srcAddr dstAddr nextProto ttl tos totalLength
      (ipv4Cksum (ipv4Header srcAddr dstAddr nextProto ttl tos totalLength 0))) = 0 := by
  let before : List Byte := [0x45] ++ [tos] ++ toBytes 2 totalLength ++ toBytes 2 0 ++
    toBytes 2 0 ++ [ttl] ++ [nextProto]
  let after := toBytes 4 srcAddr.toNat ++ toBytes 4 dstAddr.toNat
  have split (hdrChecksum : Nat) :
      ipv4Header srcAddr dstAddr nextProto ttl tos totalLength hdrChecksum =
        before ++ toWord hdrChecksum ++ after := by
    simp only [ipv4Header, before, after, List.append_assoc]
  have size : before.length = 10 := by simp [before]
  have member : (0x45 : Byte) ∈ before ++ toWord 0 ++ after := by simp [before]
  rw [split, split]
  apply ipv4Cksum_fill
  · rw [size]
  · rw [List.length_append, List.length_append, size]
    simp [after]
  · exact rawCksum_pos member (by decide) 0

/-! ## Reads of headers -/

/-- What is read where the IPv4 header of a frame lies. -/
structure Ipv4At (frame header : List Byte) (srcAddr dstAddr : BitVec 32)
    (nextProto ttl tos : Byte) (totalLength : Nat) : Prop where
  versionIhl : field frame 14 1 = some 0x45
  tos : field frame 15 1 = some tos.toNat
  totalLength : field frame 16 2 = some totalLength
  fragmentOffset : field frame 20 2 = some 0
  ttl : field frame 22 1 = some ttl.toNat
  nextProto : field frame 23 1 = some nextProto.toNat
  srcAddr : slice frame 26 4 = some (toBytes 4 srcAddr.toNat)
  dstAddr : slice frame 30 4 = some (toBytes 4 dstAddr.toNat)
  header : slice frame 14 20 = some header

variable {ethernet : List Byte} (size : ethernet.length = 14)
include size

theorem ipv4At {totalLength : Nat} (small : totalLength < 65536) (hdrChecksum : Nat)
    (rest : List Byte) :
    Ipv4At (ethernet ++ (ipv4Header srcAddr dstAddr nextProto ttl tos totalLength hdrChecksum ++
      rest)) (ipv4Header srcAddr dstAddr nextProto ttl tos totalLength hdrChecksum) srcAddr dstAddr
      nextProto ttl tos totalLength := by
  constructor
  case header =>
    rw [slice_skip (Nat.le_of_eq size), size, slice_first (ipv4Header_length _ _ _ _ _ _ _)]
  all_goals
    simp only [field, ipv4Header, List.append_assoc, slice_skip, size, slice_first,
      List.length_singleton, toBytes_length, toWord_length, Nat.le_refl, Nat.reduceLeDiff,
      Nat.reduceSub, Option.map_some, ofBytes_toBytes]
  case versionIhl => rfl
  case totalLength => exact congrArg some (Nat.mod_eq_of_lt small)
  case fragmentOffset => rfl
  all_goals exact congrArg some (Nat.zero_add _)

/-- What `finalize_ipv4_header` leaves. -/
theorem finalizeIpv4Header_eq {body : List Byte} (small : 20 + body.length < 65536) :
    finalizeIpv4Header
      (ethernet ++ (ipv4Header srcAddr dstAddr nextProto ttl tos 0 0 ++ body)) 14 =
      some (ethernet ++ (ipv4Header srcAddr dstAddr nextProto ttl tos (20 + body.length)
        (ipv4Cksum (ipv4Header srcAddr dstAddr nextProto ttl tos (20 + body.length) 0)) ++
          body)) := by
  have whole : (ethernet ++ (ipv4Header srcAddr dstAddr nextProto ttl tos 0 0 ++ body)).length -
      14 = 20 + body.length := by
    rw [List.length_append, List.length_append, ipv4Header_length, size, Nat.add_sub_cancel_left]
  have reads := ipv4At srcAddr dstAddr nextProto ttl tos size small 0 body
  unfold finalizeIpv4Header
  dsimp only
  rw [whole, put_skip (by omega), size, put_totalLength, put_skip (by omega), size,
    put_hdrChecksum, reads.versionIhl, Option.bind_eq_bind, Option.bind_some, reads.header,
    Option.bind_eq_bind, Option.bind_some, put_skip (by omega), size, put_hdrChecksum]

omit size in
/-- `rte_ipv4_udptcp_cksum` finds the addresses and the length in the header. -/
theorem Ipv4At.udptcpCksum {frame header l4 : List Byte} {srcAddr dstAddr : BitVec 32}
    {nextProto ttl tos : Byte} {totalLength : Nat}
    (reads : Ipv4At frame header srcAddr dstAddr nextProto ttl tos totalLength)
    (longer : 20 ≤ totalLength) (body : slice frame 34 (totalLength - 20) = some l4) :
    ipv4UdptcpCksum frame 14 34 =
      some (tcpCksum (toBytes 4 srcAddr.toNat) (toBytes 4 dstAddr.toNat) nextProto l4) := by
  simp only [ipv4UdptcpCksum, reads.versionIhl, reads.totalLength, reads.srcAddr, reads.dstAddr,
    reads.nextProto, body, Option.bind_eq_bind, Option.bind_some, Nat.reduceMod, Nat.reduceMul,
    if_neg (Nat.not_lt.mpr longer), BitVec.ofNat_toNat, BitVec.setWidth_eq]

/-- What `finalize_tcp_header` leaves. -/
theorem finalizeTcpHeader_eq {rest : List Byte} {totalLength : Nat}
    (exact : totalLength = 40 + rest.length) (small : totalLength < 65536) :
    finalizeTcpHeader (ethernet ++
      (ipv4Header srcAddr dstAddr ipprotoTcp ttl tos totalLength hdrChecksum ++
        (tcpHeader srcPort dstPort seq ack dataOff flags window 0 ++ rest))) 14 34 =
      some (ethernet ++ (ipv4Header srcAddr dstAddr ipprotoTcp ttl tos totalLength hdrChecksum ++
        (tcpHeader srcPort dstPort seq ack dataOff flags window
          (tcpCksum (toBytes 4 srcAddr.toNat) (toBytes 4 dstAddr.toNat) ipprotoTcp
            (tcpHeader srcPort dstPort seq ack dataOff flags window 0 ++ rest)) ++ rest))) := by
  have reads := ipv4At srcAddr dstAddr ipprotoTcp ttl tos size small hdrChecksum
    (tcpHeader srcPort dstPort seq ack dataOff flags window 0 ++ rest)
  have ipSize := ipv4Header_length srcAddr dstAddr ipprotoTcp ttl tos totalLength hdrChecksum
  have body := slice_l4 size ipSize (tcpHeader srcPort dstPort seq ack dataOff flags window 0 ++
    rest) 0 (totalLength - 20)
  rw [slice_all (by rw [List.length_append, tcpHeader_length]; omega)] at body
  unfold finalizeTcpHeader
  dsimp only
  rw [put_l4 size ipSize, put_cksum, reads.udptcpCksum (by omega) body, Option.bind_eq_bind,
    Option.bind_some, put_l4 size ipSize, put_cksum]

end Headers

/-! ## The frame of a segment -/

namespace TxSegment

variable (seg : TxSegment)

/-- The options of the TCP header. -/
def options : List Byte :=
  if seg.mssOption ≠ 0 then mssBytes seg.mssOption else []

/-- The data offset, in words, in the upper half of its byte. -/
def dataOff : Byte :=
  if seg.mssOption ≠ 0 then 0x60 else 0x50

/-- The length that the IPv4 header states. -/
def totalLength : Nat :=
  40 + (seg.options ++ seg.payload).length

def ethernet : List Byte :=
  ethernetHeader seg.addr.dstMac seg.addr.srcMac etherTypeIpv4

def ipv4 (hdrChecksum : Nat) : List Byte :=
  ipv4Header seg.addr.srcIp seg.addr.dstIp ipprotoTcp 64 0 seg.totalLength hdrChecksum

/-- The TCP header with its options, and the payload. -/
def tcp (cksum : Nat) : List Byte :=
  tcpHeader seg.addr.srcPort seg.addr.dstPort seg.seq seg.ack seg.dataOff seg.flags seg.window
    cksum ++ (seg.options ++ seg.payload)

def tcpChecksum : Nat :=
  tcpCksum (toBytes 4 seg.addr.srcIp.toNat) (toBytes 4 seg.addr.dstIp.toNat) ipprotoTcp (seg.tcp 0)

/-- The bytes on the wire. -/
def frame : List Byte :=
  seg.ethernet ++ (seg.ipv4 (ipv4Cksum (seg.ipv4 0)) ++ seg.tcp seg.tcpChecksum)

end TxSegment

theorem mbufAppend_eq_some {room used count after : Nat}
    (appended : mbufAppend room used count = some after) :
    used + count ≤ room ∧ after = used + count := by
  unfold mbufAppend at appended
  split at appended
  · rename_i fits
    exact ⟨fits, (Option.some.inj appended).symm⟩
  · cases appended

/-- An `append` succeeds when its `rte_pktmbuf_append` does. -/
theorem append_map {room : Nat} {frame bytes : List Byte} {count : Nat}
    (size : bytes.length = count) :
    append room frame bytes = (mbufAppend room frame.length count).map fun _ => frame ++ bytes := by
  subst size
  rfl

theorem buildMssOption_eq {ethernet ipv4 : List Byte} (size : ethernet.length = 14)
    (ipSize : ipv4.length = 20) (room : Nat) (srcPort dstPort : BitVec 16) (seq ack : BitVec 32)
    (flags : Byte) (window : BitVec 16) (seg : TxSegment) :
    buildMssOption room (ethernet ++ (ipv4 ++
      tcpHeader srcPort dstPort seq ack 0x50 flags window 0)) 34 seg.mssOption =
    (appendMssOption room 54 seg.mssOption).map fun _ => ethernet ++ (ipv4 ++
      (tcpHeader srcPort dstPort seq ack seg.dataOff flags window 0 ++ seg.options)) := by
  unfold buildMssOption appendMssOption TxSegment.dataOff TxSegment.options
  split
  · have whole : (ethernet ++ (ipv4 ++
        tcpHeader srcPort dstPort seq ack 0x50 flags window 0)).length = 54 := by
      simp [size, ipSize]
    rw [append_map (mssBytes_length _), whole]
    cases mbufAppend room 54 4 with
    | none => rfl
    | some used =>
        rw [Option.map_some, Option.bind_eq_bind, Option.bind_some, Option.map_some]
        simp only [List.append_assoc]
        rw [put_l4 size ipSize, put_dataOff]
  · rw [Option.map_some, List.append_nil]

theorem appendMssOption_eq_some {room used after : Nat} (seg : TxSegment)
    (inside : used ≤ room) (appended : appendMssOption room used seg.mssOption = some after) :
    after = used + seg.options.length ∧ after ≤ room := by
  unfold appendMssOption at appended
  unfold TxSegment.options
  split at appended
  · rename_i present
    obtain ⟨fits, rfl⟩ := mbufAppend_eq_some appended
    rw [if_pos present, mssBytes_length]
    exact ⟨rfl, fits⟩
  · rename_i absent
    cases appended
    rw [if_neg absent]
    exact ⟨rfl, inside⟩

theorem buildPayload_eq (room : Nat) (frame payload : List Byte) :
    buildPayload room frame payload =
      (appendPayload room frame.length payload).map fun _ => frame ++ payload := by
  unfold buildPayload appendPayload
  split
  · rename_i empty
    rw [List.isEmpty_iff.mp empty, List.append_nil, Option.map_some]
  · split
    · rfl
    · rfl

theorem appendPayload_eq_some {room used after : Nat} {payload : List Byte} (inside : used ≤ room)
    (appended : appendPayload room used payload = some after) : used + payload.length ≤ room := by
  unfold appendPayload at appended
  split at appended
  · rename_i empty
    rw [List.isEmpty_iff.mp empty, List.length_nil]
    exact inside
  · split at appended
    · cases appended
    · exact (mbufAppend_eq_some appended).1

/-- The headers before the checksums and the total length are filled in. -/
theorem finalize_eq_frame (seg : TxSegment) (small : seg.totalLength < 65536) :
    (finalizeIpv4Header (seg.ethernet ++
      (ipv4Header seg.addr.srcIp seg.addr.dstIp ipprotoTcp 64 0 0 0 ++ seg.tcp 0)) 14 >>=
        fun frame => finalizeTcpHeader frame 14 34) = some seg.frame := by
  have size : seg.ethernet.length = 14 := ethernetHeader_length _ _ _
  have body : 20 + (seg.tcp 0).length = seg.totalLength := by
    rw [TxSegment.tcp, List.length_append, tcpHeader_length, TxSegment.totalLength]
    omega
  rw [finalizeIpv4Header_eq _ _ _ _ _ size (by omega), body, Option.bind_eq_bind, Option.bind_some]
  exact finalizeTcpHeader_eq _ _ _ _ _ _ _ _ _ _ _ _ size rfl small

/-- Two programs that make the same attempt, and agree on what follows if it succeeds. -/
theorem bind_map_eq {α β γ δ : Type} {attempt : Option α} {view : α → β} {rest : β → Option γ}
    {rest' : α → Option δ} {result : δ → γ}
    (same : ∀ value, attempt = some value → rest (view value) = (rest' value).map result) :
    (attempt.map view >>= rest) = (attempt >>= rest').map result := by
  cases attempt with
  | none => rfl
  | some value => exact same value rfl

/-- The model of `build_segment` that keeps the arguments, and the bytes that it builds. -/
theorem buildFrame_eq {room : Nat} (small : room < 65536) (pool : Bool) (addr : SegmentAddr)
    (seq ack : BitVec 32) (flags : Byte) (window : BitVec 16) (payload : List Byte)
    (mssOption : BitVec 16) :
    buildFrame room pool addr seq ack flags window payload mssOption =
      (buildSegment room pool addr seq ack flags window payload mssOption).map
        TxSegment.frame := by
  let seg : TxSegment := { addr, seq, ack, flags, window, payload, mssOption }
  let header := ipv4Header addr.srcIp addr.dstIp ipprotoTcp 64 0 0 0
  have size : seg.ethernet.length = 14 := ethernetHeader_length _ _ _
  have ipSize : header.length = 20 := ipv4Header_length _ _ _ _ _ _ _
  have both : (seg.ethernet ++ header).length = 34 := by rw [List.length_append, size, ipSize]
  have ethernetStep : buildEthernetHeader room [] addr.dstMac addr.srcMac etherTypeIpv4 =
      (mbufAppend room 0 14).map fun _ => seg.ethernet :=
    append_map (ethernetHeader_length _ _ _)
  have ipv4Step : buildIpv4Header room seg.ethernet addr.srcIp addr.dstIp ipprotoTcp 64 0 =
      (mbufAppend room 14 20).map fun _ => seg.ethernet ++ header := by
    rw [buildIpv4Header, append_map ipSize, size]
  have tcpStep : buildTcpHeader room (seg.ethernet ++ header) addr.srcPort addr.dstPort seq ack
      flags window = (mbufAppend room 34 20).map fun _ => seg.ethernet ++ (header ++
        tcpHeader addr.srcPort addr.dstPort seq ack 0x50 flags window 0) := by
    rw [buildTcpHeader, append_map (tcpHeader_length _ _ _ _ _ _ _ _), both]
    simp only [List.append_assoc]
  unfold buildFrame buildSegment
  cases pool with
  | false => rfl
  | true =>
      rw [if_pos rfl, if_pos rfl, ethernetStep]
      apply bind_map_eq
      rintro _ ethernet
      obtain ⟨_, rfl⟩ := mbufAppend_eq_some ethernet
      rw [ipv4Step, size]
      apply bind_map_eq
      rintro _ ipv4
      obtain ⟨_, rfl⟩ := mbufAppend_eq_some ipv4
      rw [tcpStep, both]
      apply bind_map_eq
      rintro _ tcp
      obtain ⟨inside, rfl⟩ := mbufAppend_eq_some tcp
      rw [buildMssOption_eq size ipSize room _ _ _ _ _ _ seg]
      apply bind_map_eq
      rintro used option
      obtain ⟨rfl, inside⟩ := appendMssOption_eq_some seg inside option
      have place : (seg.ethernet ++ (header ++ (tcpHeader addr.srcPort addr.dstPort seq ack
          seg.dataOff flags window 0 ++ seg.options))).length = 54 + seg.options.length := by
        simp only [List.length_append, size, ipSize, tcpHeader_length]
        omega
      rw [buildPayload_eq, place]
      apply bind_map_eq
      rintro _ appended
      have fits := appendPayload_eq_some inside appended
      have short : seg.totalLength < 65536 := by
        rw [TxSegment.totalLength, List.length_append]
        change 40 + (seg.options.length + payload.length) < 65536
        omega
      simp only [List.append_assoc]
      exact finalize_eq_frame seg short

end DpdkWrapper.Wire
