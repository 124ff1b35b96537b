import DpdkWrapper.Wire.Bytes

/-!
# TCP segments in both directions

`Segment` is a received segment after parsing.  `TxSegment` holds the arguments
from which `build_segment` lays out an outgoing one.
-/

namespace DpdkWrapper.Wire

/-! ## Header flags and option kinds -/

def finFlag : Byte := 0x01
def synFlag : Byte := 0x02
def rstFlag : Byte := 0x04
def pshFlag : Byte := 0x08
def ackFlag : Byte := 0x10

/-- `kDefaultPeerMss`: the MSS of a peer whose SYN carries no MSS option. -/
def defaultPeerMss : BitVec 16 := 536

def tcpOptEnd : Byte := 0
def tcpOptNop : Byte := 1
def tcpOptMss : Byte := 2
def tcpOptMssLen : Byte := 4

/-- The loop of `parse_mss_option`, from option index `i` on.  `none` stands
for a read past the options, or for a walk of more than `fuel` options. -/
def parseMssLoop (opt : List Byte) : Nat → Nat → Option (BitVec 16)
  | 0, i => if i < opt.length then none else some defaultPeerMss
  | fuel + 1, i =>
      if i < opt.length then do
        let kind ← opt[i]?
        if kind = tcpOptEnd then
          some defaultPeerMss
        else if kind = tcpOptNop then
          parseMssLoop opt fuel (i + 1)
        else if i + 1 ≥ opt.length then
          some defaultPeerMss
        else do
          let size ← opt[i + 1]?
          if size.toNat < 2 ∨ i + size.toNat > opt.length then
            some defaultPeerMss
          else if kind = tcpOptMss ∧ size = tcpOptMssLen then do
            let high ← opt[i + 2]?
            let low ← opt[i + 3]?
            let mss := high ++ low
            some (if mss ≠ 0 then mss else defaultPeerMss)
          else
            parseMssLoop opt fuel (i + size.toNat)
      else
        some defaultPeerMss

/-- `parse_mss_option`: each option takes at least one byte. -/
def parseMssOption (opt : List Byte) : Option (BitVec 16) :=
  parseMssLoop opt opt.length 0

theorem parseMssLoop_ne_zero {opt : List Byte} {mss : BitVec 16} :
    ∀ (fuel i : Nat), parseMssLoop opt fuel i = some mss → mss ≠ 0 := by
  intro fuel
  induction fuel with
  | zero =>
      intro i parsed
      simp only [parseMssLoop] at parsed
      split at parsed
      · contradiction
      · cases parsed
        decide
  | succ fuel ih =>
      intro i parsed
      simp only [parseMssLoop] at parsed
      split at parsed
      · simp only [Option.bind_eq_bind, Option.bind_eq_some_iff] at parsed
        obtain ⟨kind, _, parsed⟩ := parsed
        split at parsed
        · cases parsed
          decide
        · split at parsed
          · exact ih _ parsed
          · split at parsed
            · cases parsed
              decide
            · simp only [Option.bind_eq_some_iff] at parsed
              obtain ⟨size, _, parsed⟩ := parsed
              split at parsed
              · cases parsed
                decide
              · split at parsed
                · simp only [Option.bind_eq_some_iff] at parsed
                  obtain ⟨high, _, low, _, parsed⟩ := parsed
                  split at parsed
                  · rename_i nonzero
                    cases parsed
                    exact nonzero
                  · cases parsed
                    decide
                · exact ih _ parsed
      · cases parsed
        decide

/-- A parsed MSS is never zero. -/
theorem parseMssOption_ne_zero {opt : List Byte} {mss : BitVec 16}
    (parsed : parseMssOption opt = some mss) : mss ≠ 0 :=
  parseMssLoop_ne_zero opt.length 0 parsed

/-! ## Received segments -/

/-- `segment`: a received segment, parsed once.  Its payload is part of one IPv4
packet, whose length is a 16-bit field, and `process` drops packets from 0.0.0.0
before it parses them. -/
structure Segment where
  ethSrc : Mac
  srcIp : BitVec 32
  srcPort : BitVec 16
  dstPort : BitVec 16
  seq : BitVec 32
  ack : BitVec 32
  flags : Byte
  window : BitVec 16
  payload : List Byte
  options : List Byte
  payload_lt : payload.length < 65536
  srcIp_ne_zero : srcIp ≠ 0
  deriving DecidableEq

namespace Segment

/-- `segment::has`. -/
def has (seg : Segment) (flag : Byte) : Bool :=
  (seg.flags &&& flag) != 0

/-- `segment::len` as the 32-bit number it is. -/
def len (seg : Segment) : BitVec 32 :=
  BitVec.ofNat 32 seg.payload.length

end Segment

/-! ## Outgoing segments -/

/-- `segment_addr`. -/
structure SegmentAddr where
  srcMac : Mac
  dstMac : Mac
  srcIp : BitVec 32
  dstIp : BitVec 32
  srcPort : BitVec 16
  dstPort : BitVec 16
  deriving DecidableEq, Repr

/-- A complete outgoing segment, by the values its headers are filled from.  A
zero `mssOption` stands for a header without options. -/
structure TxSegment where
  addr : SegmentAddr
  seq : BitVec 32
  ack : BitVec 32
  flags : Byte
  window : BitVec 16
  payload : List Byte
  mssOption : BitVec 16
  deriving DecidableEq, Repr

/-- `rte_pktmbuf_append`: the new data length, if the buffer has the room. -/
def mbufAppend (room used count : Nat) : Option Nat :=
  if used + count ≤ room then some (used + count) else none

/-- The MSS option, appended only when there is one. -/
def appendMssOption (room used : Nat) (mssOption : BitVec 16) : Option Nat :=
  if mssOption ≠ 0 then mbufAppend room used 4 else some used

/-- `packet::append` of a payload, which refuses what a 16-bit length cannot
hold; an empty payload is not appended at all. -/
def appendPayload (room used : Nat) (payload : List Byte) : Option Nat :=
  if payload.isEmpty then some used
  else if payload.length > 65535 then none
  else mbufAppend room used payload.length

/-- `build_segment`: `pool` says whether the pool yields a buffer, `room` is how
much data a buffer takes.  `none` is the empty packet. -/
def buildSegment (room : Nat) (pool : Bool) (addr : SegmentAddr)
    (seq ack : BitVec 32) (flags : Byte) (window : BitVec 16)
    (payload : List Byte) (mssOption : BitVec 16) : Option TxSegment :=
  if pool then do
    let used ← mbufAppend room 0 14
    let used ← mbufAppend room used 20
    let used ← mbufAppend room used 20
    let used ← appendMssOption room used mssOption
    let _ ← appendPayload room used payload
    some { addr, seq, ack, flags, window, payload, mssOption }
  else
    none

/-- What is built carries exactly the arguments. -/
theorem buildSegment_eq_some {room : Nat} {pool : Bool} {addr : SegmentAddr}
    {seq ack : BitVec 32} {flags : Byte} {window : BitVec 16}
    {payload : List Byte} {mssOption : BitVec 16} {built : TxSegment}
    (success : buildSegment room pool addr seq ack flags window payload mssOption =
      some built) :
    built = { addr, seq, ack, flags, window, payload, mssOption } := by
  unfold buildSegment at success
  split at success
  · simp only [Option.bind_eq_bind, Option.bind_eq_some_iff, Option.some.injEq] at success
    obtain ⟨_, _, _, _, _, _, _, _, _, _, same⟩ := success
    exact same.symm
  · contradiction

/-- An ARP frame, by the values its headers are filled from. -/
structure ArpFrame where
  ethDst : Mac
  opcode : Nat
  sha : Mac
  sip : BitVec 32
  tha : Mac
  tip : BitVec 32
  deriving DecidableEq, Repr

/-- A packet on the control queue. -/
inductive Packet where
  | tcp (segment : TxSegment)
  | arp (frame : ArpFrame)
  deriving DecidableEq, Repr

end DpdkWrapper.Wire
