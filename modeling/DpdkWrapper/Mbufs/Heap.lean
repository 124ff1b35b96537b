import DpdkWrapper.Unique.Handles
import Mathlib.Data.List.Dedup

/-!
# Packets in memory

A `packet` is one pointer to an mbuf, and the only one.  Variables of the program are arrays
of packets and bursts; a queue reads the pointers straight out of them.  DPDK has each mbuf
in its pool, with the driver, or handed out to the program.
-/

namespace DpdkWrapper.Mbufs

open Unique

/-- An `rte_mbuf`, by its address. -/
abbrev Mbuf := Nat

/-- A variable: an array of packets, where a single packet is an array of one, or a
`packet_burst`. -/
inductive Name where
  | packets (id : Nat)
  | burst (id : Nat)
  deriving DecidableEq, Repr

/-- Where a `packet` is. -/
abbrev Address := Name × Nat

/-- What goes wrong beyond repair, besides giving back an mbuf that is not the program's. -/
inductive Fault where
  /-- `push_back` behind the end of `storage_`. -/
  | overrun (name : Name)
  /-- Null in the array that `rte_eth_tx_burst` reads. -/
  | nullSent (address : Address)
  deriving DecidableEq, Repr

/-- The packets' pointers with the mbufs that are handed out, the number of packets alive in
each variable, and the mbufs the driver has.  All other mbufs are in the pool. -/
structure Heap where
  handles : Handles Address Mbuf
  count : Name → Nat
  driver : Mbuf → Bool
  faults : List Fault

/-- `packet_burst::max_size`. -/
def maxSize : Nat := 32

namespace Heap

def initial : Heap :=
  ⟨.empty Address Mbuf, fun _ => 0, fun _ => false, []⟩

/-- `pkt_`. -/
def cell (heap : Heap) (address : Address) : Option Mbuf :=
  heap.handles.cell address

def change (action : Handles Address Mbuf → Handles Address Mbuf) (heap : Heap) : Heap :=
  { heap with handles := action heap.handles }

def resize (name : Name) (count : Nat) (heap : Heap) : Heap :=
  { heap with count := Function.update heap.count name count }

def fail (fault : Fault) (heap : Heap) : Heap :=
  { heap with faults := fault :: heap.faults }

/-! ## Packets -/

/-- The definition of an array of packets. -/
def declare (name : Name) (count : Nat) (heap : Heap) : Heap :=
  heap.resize name count

/-- `rte_pktmbuf_alloc`.  The pool may have none left, or another one than is asked for. -/
def pktmbufAlloc (choice : Option Mbuf) (heap : Heap) : Option Mbuf × Heap :=
  match choice with
  | some mbuf =>
      if heap.handles.owned mbuf || heap.driver mbuf then
        (none, heap)
      else
        (some mbuf, heap.change (·.handOut mbuf))
  | none => (none, heap)

/-- A packet that is initialised from `packet_pool::get`. -/
def get (name : Name) (choice : Option Mbuf) (heap : Heap) : Heap :=
  let allocated := heap.pktmbufAlloc choice
  (allocated.2.change (·.put (name, 0) allocated.1)).resize name 1

/-- A packet that is initialised by `packet::packet(packet &&)`. -/
def moveConstruct (name : Name) (source : Address) (heap : Heap) : Heap :=
  (heap.change (·.moveConstruct (name, 0) source)).resize name 1

/-- `packet::operator=(packet &&)`. -/
def moveAssign (target source : Address) (heap : Heap) : Heap :=
  heap.change (·.moveAssign target source)

/-- The assignment of `packet{}`. -/
def clear (target : Address) (heap : Heap) : Heap :=
  heap.change (·.destroy target)

/-- `packet::~packet` for each packet of a variable, as `packet_burst::~packet_burst` does
it. -/
def destroy (name : Name) (heap : Heap) : Heap :=
  ((List.range (heap.count name)).foldl (fun heap i => heap.change (·.destroy (name, i)))
    heap).resize name 0

/-! ## Bursts -/

/-- `packet_burst::push_back` of a packet with this pointer. -/
def pushBack (name : Name) (value : Option Mbuf) (heap : Heap) : Heap :=
  if heap.count name < maxSize then
    (heap.change (·.put (name, heap.count name) value)).resize name (heap.count name + 1)
  else
    heap.fail (.overrun name)

/-- `push_back(std::move(*other.slot(i)))`. -/
def pushBackFrom (target source : Name) (i : Nat) (heap : Heap) : Heap :=
  (heap.pushBack target (heap.cell (source, i))).change (·.put (source, i) none)

/-- `packet_burst::packet_burst(packet_burst &&)`. -/
def moveBurst (target source : Name) (heap : Heap) : Heap :=
  (List.range (heap.count source)).foldl (fun heap i => heap.pushBackFrom target source i) heap

/-- `packet_burst::operator=(packet_burst &&)`. -/
def assignBurst (target source : Name) (heap : Heap) : Heap :=
  if target = source then heap else (heap.destroy target).moveBurst target source

/-! ## Queues -/

/-- An mbuf comes from the driver. -/
def accept (mbuf : Mbuf) (heap : Heap) : Heap :=
  { heap.change (·.handOut mbuf) with driver := Function.update heap.driver mbuf false }

/-- `rte_eth_rx_burst`: the driver passes on some of the mbufs it has. -/
def ethRxBurst (offered : List Mbuf) (limit : Nat) (heap : Heap) : List Mbuf × Heap :=
  let raw := ((offered.filter heap.driver).dedup).take limit
  (raw, raw.foldl (fun heap mbuf => heap.accept mbuf) heap)

/-- `rx_queue::receive_burst`. -/
def receiveBurst (name : Name) (maxCount : Nat) (offered : List Mbuf) (heap : Heap) : Heap :=
  let limit := if maxCount > maxSize then maxSize else maxCount
  let received := heap.ethRxBurst offered limit
  received.1.foldl (fun heap mbuf => heap.pushBack name (some mbuf)) received.2

/-- The driver follows a pointer. -/
def inspect (address : Address) (heap : Heap) : Heap :=
  if heap.cell address = none then heap.fail (.nullSent address) else heap

/-- The driver takes an mbuf. -/
def hand (address : Address) (heap : Heap) : Heap :=
  match heap.cell address with
  | some mbuf =>
      { heap.change (·.giveBack mbuf) with driver := Function.update heap.driver mbuf true }
  | none => heap

/-- `rte_eth_tx_burst`: the driver may look at all mbufs and takes a first part of them. -/
def ethTxBurst (span : List Address) (room : Nat) (heap : Heap) : Nat × Heap :=
  let sent := min room span.length
  let seen := span.foldl (fun heap address => heap.inspect address) heap
  (sent, (span.take sent).foldl (fun heap address => heap.hand address) seen)

/-- The packets of a span, as many of them as `rte_eth_tx_burst` is told about. -/
def spanOf (name : Name) (offset size : Nat) : List Address :=
  (List.range (size % 65536)).map fun i => (name, offset + i)

/-- `tx_queue::send_burst`: how many were sent. -/
def sendBurst (name : Name) (offset size room : Nat) (heap : Heap) : Nat × Heap :=
  let span := spanOf name offset size
  let transmitted := heap.ethTxBurst span room
  (transmitted.1, (span.take transmitted.1).foldl
    (fun heap address => heap.change (·.put address none)) transmitted.2)

/-- The driver is done with an mbuf. -/
def complete (mbuf : Mbuf) (heap : Heap) : Heap :=
  { heap with driver := Function.update heap.driver mbuf false }

/-- The driver takes an mbuf out of the pool, to receive into it. -/
def refill (mbuf : Mbuf) (heap : Heap) : Heap :=
  if heap.handles.owned mbuf then heap
  else { heap with driver := Function.update heap.driver mbuf true }

end Heap

end DpdkWrapper.Mbufs
