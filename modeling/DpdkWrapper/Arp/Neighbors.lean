import DpdkWrapper.Probing.Represents
import DpdkWrapper.Wire.Segment

/-!
# The neighbor table and ARP

`neighbor_table` maps IPv4 addresses to Ethernet addresses by open addressing
with address 0.0.0.0 marking an empty slot; entries are never removed.
`handle_arp` merges a received ARP packet into it and answers requests for the
port's own address.
-/

namespace DpdkWrapper.Arp

open Probing Wire

/-- `neighbor_table`. -/
structure NeighborTable where
  slots : Table (BitVec 32) Mac
  capacity : Nat
  size : Nat

namespace NeighborTable

/-- `hash_ip`: the product is taken modulo `2 ^ 32`. -/
def hashIp (ip : BitVec 32) : Nat :=
  (ip * 2654435769#32).toNat

/-- `neighbor_table::neighbor_table`. -/
def make (capacity : Nat) : NeighborTable where
  slots :=
    { size := bitCeil (if capacity * 2 < 2 then 2 else capacity * 2)
      cells := fun _ => ⟨0, 0⟩ }
  capacity := capacity
  size := 0

/-- `neighbor_table::find_slot`; `none` if probing does not end. -/
def findSlot (neighbors : NeighborTable) (ip : BitVec 32) : Option Nat :=
  neighbors.slots.probe (fun address => hashIp address &&& (neighbors.slots.size - 1)) ip

/-- `neighbor_table::learn`. -/
def learn (neighbors : NeighborTable) (ip : BitVec 32) (mac : Mac) :
    Bool × NeighborTable :=
  if ip = 0 then
    (false, neighbors)
  else
    match neighbors.findSlot ip with
    | none => (false, neighbors)
    | some index =>
        if (neighbors.slots.cells index).key = 0 then
          if neighbors.size ≥ neighbors.capacity then
            (false, neighbors)
          else
            (true, { neighbors with
              slots := neighbors.slots.set index ⟨ip, mac⟩
              size := neighbors.size + 1 })
        else
          (true, { neighbors with
            slots := neighbors.slots.set index
              ⟨(neighbors.slots.cells index).key, mac⟩ })

/-- `neighbor_table::update_if_present`. -/
def updateIfPresent (neighbors : NeighborTable) (ip : BitVec 32) (mac : Mac) :
    Bool × NeighborTable :=
  if ip = 0 then
    (false, neighbors)
  else
    match neighbors.findSlot ip with
    | none => (false, neighbors)
    | some index =>
        if (neighbors.slots.cells index).key ≠ ip then
          (false, neighbors)
        else
          (true, { neighbors with slots := neighbors.slots.set index ⟨ip, mac⟩ })

/-- `neighbor_table::lookup`; `none` is the null pointer. -/
def lookup (neighbors : NeighborTable) (ip : BitVec 32) : Option Mac :=
  if ip = 0 then
    none
  else
    match neighbors.findSlot ip with
    | none => none
    | some index =>
        if (neighbors.slots.cells index).key = ip then
          some (neighbors.slots.cells index).value
        else
          none

end NeighborTable

/-- `arp_result`. -/
inductive ArpResult where
  | notArp
  | ignored
  | learned
  | replied
  deriving DecidableEq, Repr

/-- RTE_ARP_OP_REQUEST. -/
def opRequest : Nat := 1

/-- RTE_ARP_OP_REPLY. -/
def opReply : Nat := 2

/-- `build_arp`: `none` is the empty packet. -/
def buildArp (room : Nat) (pool : Bool) (ethDst : Mac) (opcode : Nat) (sha : Mac)
    (sip : BitVec 32) (tha : Mac) (tip : BitVec 32) : Option ArpFrame :=
  if pool then do
    let used ← mbufAppend room 0 14
    let _ ← mbufAppend room used 28
    some { ethDst, opcode, sha, sip, tha, tip }
  else
    none

/-- `build_arp_request`. -/
def buildArpRequest (room : Nat) (pool : Bool) (localMac : Mac) (localIp targetIp : BitVec 32) :
    Option ArpFrame :=
  buildArp room pool (BitVec.allOnes 48) opRequest localMac localIp 0 targetIp

/-- What `handle_arp` returns and leaves behind. -/
structure ArpOutcome where
  result : ArpResult
  neighbors : NeighborTable
  reply : Option ArpFrame

/-- `handle_arp` on a frame of 16-bit length `length`.  `none` stands for a read
outside the frame. -/
def handleArp (frame : List Byte) (length : Nat) (localMac : Mac) (localIp : BitVec 32)
    (neighbors : NeighborTable) (room : Nat) (pool : Bool) : Option ArpOutcome :=
  if length < 14 then
    some ⟨.notArp, neighbors, none⟩
  else do
    let etherType ← field frame 12 2
    if etherType ≠ 0x0806 then
      some ⟨.notArp, neighbors, none⟩
    else if length < 14 + 28 then
      some ⟨.ignored, neighbors, none⟩
    else do
      let hardware ← field frame 14 2
      let protocol ← field frame 16 2
      let hlen ← field frame 18 1
      let plen ← field frame 19 1
      if hardware ≠ 1 ∨ protocol ≠ 0x0800 ∨ hlen ≠ 6 ∨ plen ≠ 4 then
        some ⟨.ignored, neighbors, none⟩
      else do
        let opcode ← field frame 20 2
        let sha ← (field frame 22 6).map (BitVec.ofNat 48)
        let sip ← (field frame 28 4).map (BitVec.ofNat 32)
        let tip ← (field frame 38 4).map (BitVec.ofNat 32)
        let forUs := tip = localIp
        let merged :=
          if forUs then neighbors.learn sip sha else neighbors.updateIfPresent sip sha
        if forUs ∧ opcode = opRequest then
          let reply := buildArp room pool sha opReply localMac localIp sha sip
          some ⟨if reply.isSome then .replied else .learned, merged.2, reply⟩
        else
          some ⟨if merged.1 then .learned else .ignored, merged.2, none⟩

end DpdkWrapper.Arp
