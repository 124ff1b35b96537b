import DpdkWrapper.Tcp.Memory

/-!
# From frames to segments

The part of `process` and `process_tcp` that only looks at the frame: the
checks, in the order of the source, and the segment that passes them all.
-/

namespace DpdkWrapper.Tcp

open Wire

/-- What becomes of a received frame. -/
inductive Verdict where
  | ignored
  | dropped (counter : Counter)
  | arp
  | segment (seg : Segment)
  deriving DecidableEq

/-- `packet::length`. -/
def packetLength (frame : List Byte) : Nat :=
  frame.length % 65536

/-- Whether the TCP checksum is right, or is not looked at. -/
def tcpChecksumPasses (k : TcpStack) (frame : List Byte) (l4 l4Len : Nat) : Option Bool :=
  if k.verifyChecksums then do
    let srcAddr ← slice frame 26 4
    let dstAddr ← slice frame 30 4
    let proto ← field frame 23 1
    let body ← slice frame l4 l4Len
    some (tcpChecksumOk srcAddr dstAddr (BitVec.ofNat 8 proto) body)
  else
    some true

/-- Whether the IPv4 header checksum is right, or is not looked at. -/
def ipv4ChecksumPasses (k : TcpStack) (frame : List Byte) (ipHdrLen : Nat) :
    Option Bool :=
  if k.verifyChecksums then do
    let header ← slice frame 14 ipHdrLen
    some (ipv4Cksum header == 0)
  else
    some true

/-- The parsed segment; its TCP header starts at offset `l4`. -/
def parseSegment (frame : List Byte) (l4 l4Len dataOff : Nat) : Option Verdict := do
  let ethSrc ← field frame 6 6
  let srcIp ← field frame 26 4
  let srcPort ← field frame l4 2
  let dstPort ← field frame (l4 + 2) 2
  let seq ← field frame (l4 + 4) 4
  let ack ← field frame (l4 + 8) 4
  let flags ← field frame (l4 + 13) 1
  let window ← field frame (l4 + 14) 2
  let options ← slice frame (l4 + 20) (dataOff - 20)
  let payload ← slice frame (l4 + dataOff) (l4Len - dataOff)
  if proper : payload.length < 65536 ∧ BitVec.ofNat 32 srcIp ≠ 0 then
    some (.segment
      { ethSrc := BitVec.ofNat 48 ethSrc
        srcIp := BitVec.ofNat 32 srcIp
        srcPort := BitVec.ofNat 16 srcPort
        dstPort := BitVec.ofNat 16 dstPort
        seq := BitVec.ofNat 32 seq
        ack := BitVec.ofNat 32 ack
        flags := BitVec.ofNat 8 flags
        window := BitVec.ofNat 16 window
        payload := payload
        options := options
        payload_lt := proper.1
        srcIp_ne_zero := proper.2 })
  else
    none

/-- The checks of `process_tcp`.  `none` stands for a read outside the frame. -/
def decodeTcp (k : TcpStack) (frame : List Byte) (ipHdrLen ipTotalLen : Nat) :
    Option Verdict :=
  let l4 := 14 + ipHdrLen
  let l4Len := ipTotalLen - ipHdrLen
  if l4Len < 20 then
    some (.dropped .malformed)
  else do
    let offsetByte ← field frame (l4 + 12) 1
    let dataOff := offsetByte / 16 * 4
    if dataOff < 20 ∨ dataOff > l4Len then
      some (.dropped .malformed)
    else do
      let checksumOk ← tcpChecksumPasses k frame l4 l4Len
      if !checksumOk then
        some (.dropped .badChecksum)
      else
        parseSegment frame l4 l4Len dataOff

/-- The checks of `process` on an IPv4 frame. -/
def decodeIpv4 (k : TcpStack) (frame : List Byte) : Option Verdict :=
  let l3Avail := packetLength frame - 14
  if l3Avail < 20 then
    some (.dropped .malformed)
  else do
    let versionIhl ← field frame 14 1
    let ipHdrLen := versionIhl % 16 * 4
    let ipTotalLen ← field frame 16 2
    if versionIhl / 16 ≠ 4 ∨ ipHdrLen < 20 ∨ ipTotalLen < ipHdrLen ∨
        ipTotalLen > l3Avail then
      some (.dropped .malformed)
    else do
      let dstIp ← field frame 30 4
      if dstIp ≠ k.localIp.toNat then
        some .ignored
      else do
        let srcIp ← field frame 26 4
        if srcIp = 0 then
          some (.dropped .malformed)
        else do
          let checksumOk ← ipv4ChecksumPasses k frame ipHdrLen
          if !checksumOk then
            some (.dropped .badChecksum)
          else do
            let proto ← field frame 23 1
            if proto ≠ 6 then
              some .ignored
            else do
              let fragment ← field frame 20 2
              -- the More-Fragments bit and the offset: all but the top two bits
              if fragment % 0x4000 ≠ 0 then
                some (.dropped .ipFragments)
              else
                decodeTcp k frame ipHdrLen ipTotalLen

/-- The checks of `process` up to the state machine. -/
def decode (k : TcpStack) (frame : List Byte) (contiguous : Bool) : Option Verdict :=
  if packetLength frame < 14 then
    some .ignored
  else if !contiguous then
    some (.dropped .multiSegment)
  else do
    let etherType ← field frame 12 2
    if etherType = 0x0806 then
      some .arp
    else if etherType ≠ 0x0800 then
      some .ignored
    else
      decodeIpv4 k frame

end DpdkWrapper.Tcp
