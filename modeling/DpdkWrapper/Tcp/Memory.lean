import DpdkWrapper.Arp.Neighbors
import DpdkWrapper.Tcp.Connection
import DpdkWrapper.Tcp.FlowTable
import DpdkWrapper.Threads.RelyGuarantee

/-!
# The stack and the memory its two threads share

`TcpStack` holds what is fixed once the stack is set up.  `Receiver` is the
inbound thread's state together with the connection fields it writes, and
`Sender` the two atomics per slot that the outbound thread writes.  Each side
also keeps a newest-first log of what it has done that can be observed from
outside, and of what would be undefined behaviour; no code reads the logs.
-/

namespace DpdkWrapper.Tcp

open Arp Threads Wire

/-- `tcp_stack` after construction and `listen()` calls, with the data room of
its pool's buffers.  The constructor refuses zero connections and a zero MSS;
the number of connections is a 16-bit parameter. -/
structure TcpStack where
  localMac : Mac
  localIp : BitVec 32
  mss : BitVec 16
  maxConnections : Nat
  receiveWindow : BitVec 16
  verifyChecksums : Bool
  listening : List (BitVec 16)
  mbufRoom : Nat
  maxConnections_pos : 0 < maxConnections
  maxConnections_lt : maxConnections < 65536
  mss_ne_zero : mss ≠ 0

/-- `packet_burst::max_size`. -/
def maxBurst : Nat := 32

/-- `tcp_receiver::impl::max_control`. -/
def maxControl : Nat := 2 * maxBurst

/-- The counters of `tcp_stats`. -/
inductive Counter where
  | badChecksum
  | malformed
  | ipFragments
  | multiSegment
  | outOfOrder
  | noFreeSlot
  | rstReceived
  | rstSent
  | controlTxDropped
  deriving DecidableEq, Repr

/-- What the inbound thread has done. -/
inductive RxEntry where
  /-- `open` gave a slot a new generation. -/
  | opened (slot : Nat)
  /-- An event was pushed. -/
  | event (event : TcpEvent)
  /-- The peer's FIN was consumed in order. -/
  | finConsumed (slot : Nat)
  /-- `process_ack` found an ACK to be beyond the `snd_nxt` it loaded. -/
  | ackRefused (slot : Nat) (ack sndNxt : BitVec 32)
  /-- The control queue took a packet. -/
  | controlSent (packet : Packet)
  /-- A loop of the source would not end here, or a read would leave its buffer. -/
  | fault
  deriving DecidableEq, Repr

/-- What the outbound thread has done.  Each of its functions records what it
returns. -/
inductive TxEntry where
  /-- `open` reset a slot's outbound fields for a new connection. -/
  | opened (slot : Nat)
  /-- The data queue took a segment of the connection in a slot. -/
  | sent (slot : Nat) (segment : TxSegment)
  /-- `close` stored `out_released`. -/
  | released (conn : ConnId)
  | lookupReturned (conn : ConnId) (found : Bool)
  | sendableReturned (conn : ConnId) (result : Bool)
  | sendSpaceReturned (conn : ConnId) (space : Nat)
  | sendReturned (conn : ConnId) (bytes : List Byte) (count : Nat)
  | closeReturned (conn : ConnId)
  /-- The second `lookup` of a call returned null and was dereferenced. -/
  | nullDereference (conn : ConnId)
  /-- The loop of `send` would not end here. -/
  | fault
  deriving DecidableEq, Repr

/-- `tcp_receiver::impl` with the inbound-written part of the slots.  The head
of `freeSlots` is the back of the source's vector; the other lists are in vector
order, and the entries of `control` are the first `n_control` ones. -/
structure Receiver where
  slots : Nat → TcpConnection
  neighbors : NeighborTable
  flows : FlowTable
  stats : Counter → Nat
  freeSlots : List Nat
  awaitingRelease : List Nat
  ackList : List Nat
  finalizeList : List Nat
  control : List Packet
  events : List TcpEvent
  log : List RxEntry

/-- The outbound-written part of the slots. -/
structure Sender where
  slots : Nat → OutboundFields
  log : List TxEntry

/-- The memory of both threads. -/
structure Memory where
  rx : Receiver
  tx : Sender

/-- Code of either thread. -/
abbrev Code := Program Memory

/-- `tcp_receiver::impl::impl` on zero-initialized slots; slot 0 is handed out
first. -/
def Receiver.initial (k : TcpStack) : Receiver where
  slots _ := {}
  neighbors := NeighborTable.make 256
  flows := FlowTable.make k.maxConnections
  stats _ := 0
  freeSlots := List.range k.maxConnections
  awaitingRelease := []
  ackList := []
  finalizeList := []
  control := []
  events := []
  log := []

def Memory.initial (k : TcpStack) : Memory where
  rx := Receiver.initial k
  tx := { slots := fun _ => {}, log := [] }

/-! ## Access to the memory -/

namespace Receiver

/-- Change the connection in one slot. -/
def updateSlot (rx : Receiver) (idx : Nat) (change : TcpConnection → TcpConnection) :
    Receiver :=
  { rx with slots := Function.update rx.slots idx (change (rx.slots idx)) }

/-- Increment a counter. -/
def count (rx : Receiver) (counter : Counter) : Receiver :=
  { rx with stats := Function.update rx.stats counter (rx.stats counter + 1) }

/-- Append to the log. -/
def note (rx : Receiver) (entry : RxEntry) : Receiver :=
  { rx with log := entry :: rx.log }

variable (rx : Receiver) (idx : Nat) (change : TcpConnection → TcpConnection)

@[simp]
theorem updateSlot_slots (i : Nat) :
    (rx.updateSlot idx change).slots i =
      if i = idx then change (rx.slots i) else rx.slots i := by
  by_cases same : i = idx
  · subst same
    simp [updateSlot]
  · simp [updateSlot, same]

@[simp]
theorem updateSlot_flows : (rx.updateSlot idx change).flows = rx.flows := rfl

@[simp]
theorem updateSlot_freeSlots : (rx.updateSlot idx change).freeSlots = rx.freeSlots := rfl

@[simp]
theorem updateSlot_awaitingRelease :
    (rx.updateSlot idx change).awaitingRelease = rx.awaitingRelease := rfl

@[simp]
theorem updateSlot_finalizeList : (rx.updateSlot idx change).finalizeList = rx.finalizeList := rfl

@[simp]
theorem updateSlot_log : (rx.updateSlot idx change).log = rx.log := rfl

variable (counter : Counter) (entry : RxEntry)

@[simp]
theorem count_slots : (rx.count counter).slots = rx.slots := rfl

@[simp]
theorem count_flows : (rx.count counter).flows = rx.flows := rfl

@[simp]
theorem count_freeSlots : (rx.count counter).freeSlots = rx.freeSlots := rfl

@[simp]
theorem count_awaitingRelease : (rx.count counter).awaitingRelease = rx.awaitingRelease := rfl

@[simp]
theorem count_finalizeList : (rx.count counter).finalizeList = rx.finalizeList := rfl

@[simp]
theorem count_log : (rx.count counter).log = rx.log := rfl

@[simp]
theorem note_slots : (rx.note entry).slots = rx.slots := rfl

@[simp]
theorem note_flows : (rx.note entry).flows = rx.flows := rfl

@[simp]
theorem note_freeSlots : (rx.note entry).freeSlots = rx.freeSlots := rfl

@[simp]
theorem note_awaitingRelease : (rx.note entry).awaitingRelease = rx.awaitingRelease := rfl

@[simp]
theorem note_finalizeList : (rx.note entry).finalizeList = rx.finalizeList := rfl

@[simp]
theorem note_log : (rx.note entry).log = entry :: rx.log := rfl

end Receiver

/-- A step of the inbound thread on its own state. -/
def inbound (change : Receiver → Receiver) : Code Unit :=
  Program.modify fun mem => { mem with rx := change mem.rx }

/-- A read of the inbound-written state. -/
def viewRx {α : Type} (value : Receiver → α) : Code α :=
  Program.read fun mem => value mem.rx

/-- A step of the outbound thread on its own state. -/
def outbound (change : Sender → Sender) : Code Unit :=
  Program.modify fun mem => { mem with tx := change mem.tx }

/-- `out_flags.load`. -/
def loadOutFlags (idx : Nat) : Code (BitVec 8) :=
  Program.read fun mem => (mem.tx.slots idx).outFlags

/-- `snd_nxt.load`. -/
def loadSndNxt (idx : Nat) : Code (BitVec 32) :=
  Program.read fun mem => (mem.tx.slots idx).sndNxt

namespace Sender

/-- Change the outbound fields of one slot. -/
def updateSlot (tx : Sender) (idx : Nat) (change : OutboundFields → OutboundFields) :
    Sender :=
  { tx with slots := Function.update tx.slots idx (change (tx.slots idx)) }

/-- Append to the log. -/
def note (tx : Sender) (entry : TxEntry) : Sender :=
  { tx with log := entry :: tx.log }

variable (tx : Sender) (idx : Nat) (change : OutboundFields → OutboundFields)
  (entry : TxEntry)

@[simp]
theorem updateSlot_slots (i : Nat) :
    (tx.updateSlot idx change).slots i =
      if i = idx then change (tx.slots i) else tx.slots i := by
  by_cases same : i = idx
  · subst same
    simp [updateSlot]
  · simp [updateSlot, same]

@[simp]
theorem updateSlot_log : (tx.updateSlot idx change).log = tx.log := rfl

@[simp]
theorem note_slots : (tx.note entry).slots = tx.slots := rfl

@[simp]
theorem note_log : (tx.note entry).log = entry :: tx.log := rfl

end Sender

/-- `snd_nxt.store`. -/
def storeSndNxt (idx : Nat) (value : BitVec 32) : Code Unit :=
  outbound fun tx => tx.updateSlot idx fun fields => { fields with sndNxt := value }

/-- `out_flags.store`. -/
def storeOutFlags (idx : Nat) (value : BitVec 8) : Code Unit :=
  outbound fun tx => tx.updateSlot idx fun fields => { fields with outFlags := value }

/-! ## Uninterrupted execution of single steps -/

section Run

variable {α β : Type} (mem : Memory)

theorem run_viewRx_bind (value : Receiver → α) (rest : α → Code β) :
    (viewRx value >>= rest).run mem = (rest (value mem.rx)).run mem := rfl

theorem run_loadOutFlags_bind (idx : Nat) (rest : BitVec 8 → Code β) :
    (loadOutFlags idx >>= rest).run mem =
      (rest (mem.tx.slots idx).outFlags).run mem := rfl

theorem run_loadSndNxt_bind (idx : Nat) (rest : BitVec 32 → Code β) :
    (loadSndNxt idx >>= rest).run mem =
      (rest (mem.tx.slots idx).sndNxt).run mem := rfl

theorem run_inbound_bind (change : Receiver → Receiver) (rest : Unit → Code β) :
    (inbound change >>= rest).run mem =
      (rest ()).run { mem with rx := change mem.rx } := rfl

theorem run_inbound (change : Receiver → Receiver) :
    (inbound change).run mem = ((), { mem with rx := change mem.rx }) := rfl

theorem run_outbound_bind (change : Sender → Sender) (rest : Unit → Code β) :
    (outbound change >>= rest).run mem =
      (rest ()).run { mem with tx := change mem.tx } := rfl

theorem run_storeSndNxt_bind (idx : Nat) (value : BitVec 32) (rest : Unit → Code β) :
    (storeSndNxt idx value >>= rest).run mem =
      (rest ()).run ⟨mem.rx,
        mem.tx.updateSlot idx fun fields => { fields with sndNxt := value }⟩ := rfl

theorem run_storeOutFlags_bind (idx : Nat) (value : BitVec 8) (rest : Unit → Code β) :
    (storeOutFlags idx value >>= rest).run mem =
      (rest ()).run ⟨mem.rx,
        mem.tx.updateSlot idx fun fields => { fields with outFlags := value }⟩ := rfl

end Run

end DpdkWrapper.Tcp
