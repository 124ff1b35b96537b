import DpdkWrapper.Echo.Ring
import DpdkWrapper.Tcp.Connection
import DpdkWrapper.Threads.Parallel

/-!
# The echo server

The inbound thread turns the events of each poll into work items and hands them over through
the ring, or through an overflow queue of its own while the ring is full.  The outbound thread
takes one item after the other and calls the sender.  What the sender answers is left open.
-/

namespace DpdkWrapper.Echo

open Tcp Threads Wire

/-- `work_item::kind`. -/
inductive WorkKind where
  | data
  | peerClosed
  | reset
  deriving DecidableEq, Repr

/-- `work_item`. -/
structure WorkItem where
  what : WorkKind
  conn : ConnId
  len : BitVec 16
  bytes : List Byte
  deriving DecidableEq, Repr

/-- The room in `work_item::bytes`. -/
def itemSize : Nat := 2048

/-- A call on the sender, with its result. -/
inductive SenderCall where
  | sendable (conn : ConnId) (result : Bool)
  | send (conn : ConnId) (bytes : List Byte) (count : Nat)
  | close (conn : ConnId)
  deriving DecidableEq, Repr

/-- Where the outbound thread is between two rounds of its loops: at the head of the outer
one, or in the retry loop for an item of which `sent` bytes have been taken. -/
inductive OutboundPc where
  | polling
  | sending (index sent : Nat)
  | stopped
  deriving DecidableEq, Repr

/-- The capacity is `2 ^ ringBits`. -/
def ringBits : Nat := 12

abbrev Ring := SpscRing WorkItem ringBits

/-- `echo::server`, with the events that have been handled and the calls that have been made,
the last one first. -/
structure Server where
  ring : Ring
  overflow : List WorkItem
  releasedGen : Nat → BitVec 32
  accepted : BitVec 64
  finished : BitVec 64
  pc : OutboundPc
  /-- The outbound thread has seen `stop`. -/
  stopSeen : Bool
  handled : List TcpEvent
  calls : List SenderCall

abbrev Code := Program Server

def Server.initial (items : Nat → WorkItem) : Server where
  ring := .initial items
  overflow := []
  releasedGen _ := 0
  accepted := 0
  finished := 0
  pc := .polling
  stopSeen := false
  handled := []
  calls := []

/-- Change the ring. -/
def Server.onRing (server : Server) (change : Ring → Ring) : Server :=
  { server with ring := change server.ring }

/-- Record a call. -/
def Server.call (server : Server) (call : SenderCall) : Server :=
  { server with calls := call :: server.calls }

/-! ## The inbound thread -/

/-- `spsc_ring::reserve`. -/
def reserve : Code (Option Nat) := do
  let head ← Program.read (·.ring.head)
  let tail ← Program.read (·.ring.tail)
  if SpscRing.isFull ringBits head tail then
    pure none
  else
    pure (some (SpscRing.slot ringBits head))

/-- `spsc_ring::commit`. -/
def commit : Code Unit := do
  let head ← Program.read (·.ring.head)
  Program.modify (·.onRing (·.commit head))

/-- The `memcpy` of `copy_item`; what is behind the copied bytes stays. -/
def copyBytes (source target : WorkItem) : WorkItem :=
  { target with
    bytes := source.bytes.take source.len.toNat ++ target.bytes.drop source.len.toNat }

/-- `copy_item`, one field after the other. -/
def copyItem (index : Nat) (source : WorkItem) : Code Unit := do
  Program.modify (·.onRing (·.store index fun target => { target with what := source.what }))
  Program.modify (·.onRing (·.store index fun target => { target with conn := source.conn }))
  Program.modify (·.onRing (·.store index fun target => { target with len := source.len }))
  Program.modify (·.onRing (·.store index (copyBytes source)))

/-- `overflow_.push_back`. -/
def spill (item : WorkItem) : Code Unit :=
  Program.modify fun server => { server with overflow := server.overflow ++ [item] }

/-- `enqueue`. -/
def enqueue (item : WorkItem) : Code Unit := do
  let overflow ← Program.read (·.overflow)
  if overflow.isEmpty then do
    let reserved ← reserve
    reserved.elim (spill item) fun index => do
      copyItem index item
      commit
  else
    spill item

/-- `drain_overflow`; each round takes one entry off the queue. -/
def drainLoop : Nat → Code Unit
  | 0 => pure ()
  | fuel + 1 => do
      let overflow ← Program.read (·.overflow)
      overflow.head?.elim (pure ()) fun item => do
        let reserved ← reserve
        reserved.elim (pure ()) fun index => do
          copyItem index item
          commit
          Program.modify fun server => { server with overflow := server.overflow.tail }
          drainLoop fuel

def drainOverflow : Code Unit := do
  let overflow ← Program.read (·.overflow)
  drainLoop overflow.length

/-- The loop of `handle` over the payload of a `data` event. -/
def chunks : Nat → List Byte → List (List Byte)
  | 0, _ => []
  | fuel + 1, data =>
      if data.isEmpty then [] else data.take itemSize :: chunks fuel (data.drop itemSize)

/-- The work item for a chunk; the rest of the array is not initialized. -/
def dataItem (conn : ConnId) (junk chunk : List Byte) : WorkItem where
  what := .data
  conn := conn
  len := BitVec.ofNat 16 chunk.length
  bytes := chunk ++ junk

/-- The work item for the end of a connection. -/
def endItem (what : WorkKind) (conn : ConnId) (junk : List Byte) : WorkItem where
  what := what
  conn := conn
  len := 0
  bytes := junk

/-- The items that `handle` makes of an event. -/
def itemsFor (junk : List Byte) (event : TcpEvent) : List WorkItem :=
  match event.type with
  | .accepted => []
  | .data => (chunks event.data.length event.data).map (dataItem event.conn junk)
  | .peerClosed => [endItem .peerClosed event.conn junk]
  | .reset => [endItem .reset event.conn junk]
  | .closed => []

/-- The counters of `handle`. -/
def countEvent (event : TcpEvent) (server : Server) : Server :=
  match event.type with
  | .accepted => { server with accepted := server.accepted + 1 }
  | .reset => { server with finished := server.finished + 1 }
  | .closed => { server with finished := server.finished + 1 }
  | .data => server
  | .peerClosed => server

/-- `handle`. -/
def handle (junk : List Byte) (event : TcpEvent) : Code Unit := do
  Program.modify fun server => { server with handled := server.handled ++ [event] }
  Program.forEach enqueue (itemsFor junk event)
  Program.modify (countEvent event)

/-! ## The outbound thread -/

/-- What the outbound thread is told in one round: the value of `stop`, the answer of
`sendable` and how much `send` takes. -/
structure RoundEnv where
  stop : Bool
  sendable : Bool
  take : Nat

/-- `pop`, after which the outer loop goes on. -/
def popItem : Code Unit := do
  let tail ← Program.read (·.ring.tail)
  Program.modify fun server => { server.onRing (·.pop tail) with pc := .polling }

/-- `close_once`. -/
def closeOnce (conn : ConnId) : Code Unit := do
  let generation ← Program.read (·.releasedGen conn.slot)
  if generation != conn.generation then do
    Program.modify fun server =>
      { server with releasedGen := Function.update server.releasedGen conn.slot conn.generation }
    Program.modify (·.call (.close conn))
  else
    pure ()

/-- Serve the item in a slot: enter the retry loop, or close. -/
def serve (index : Nat) : WorkKind → Code Unit
  | .data => Program.modify fun server => { server with pc := .sending index 0 }
  | .peerClosed => do
      let conn ← Program.read (·.ring.items index |>.conn)
      closeOnce conn
      popItem
  | .reset => do
      let conn ← Program.read (·.ring.items index |>.conn)
      closeOnce conn
      popItem

/-- One round of `run_outbound`. -/
def pollRing (env : RoundEnv) : Code Unit :=
  if env.stop then
    Program.modify fun server => { server with pc := .stopped, stopSeen := true }
  else do
    let tail ← Program.read (·.ring.tail)
    let head ← Program.read (·.ring.head)
    if tail == head then
      pure ()
    else do
      let what ← Program.read (·.ring.items (SpscRing.slot ringBits tail) |>.what)
      serve (SpscRing.slot ringBits tail) what

/-- The call of `send` in the retry loop. -/
def sendRest (index sent : Nat) (take : Nat) : Code Unit := do
  let item ← Program.read (·.ring.items index)
  let bytes := (item.bytes.drop sent).take (item.len.toNat - sent)
  let count := min take bytes.length
  Program.modify fun server =>
    { server.call (.send item.conn bytes count) with pc := .sending index (sent + count) }

/-- One round of the retry loop. -/
def retry (index sent : Nat) (env : RoundEnv) : Code Unit := do
  let item ← Program.read (·.ring.items index)
  if sent < item.len.toNat then do
    Program.modify (·.call (.sendable item.conn env.sendable))
    if env.sendable then
      if env.stop then do
        Program.modify fun server => { server with stopSeen := true }
        popItem
      else
        sendRest index sent env.take
    else
      popItem
  else
    popItem

/-! ## Both threads -/

/-- The inbound thread: drain the overflow, then poll each of the `queues` receive queues and
handle the events.  The place is the number of queues left in this round and the events of
the last poll that have not been handled. -/
def inboundLoop (queues : Nat) : Thread Server where
  Place := Nat × List TcpEvent
  starts _ place program place' :=
    (place = (0, []) ∧ program = drainOverflow ∧ place' = (queues, [])) ∨
    (∃ left events, place = (left + 1, []) ∧ program = .done () ∧ place' = (left, events)) ∨
    ∃ left event events junk, place = (left, event :: events) ∧ program = handle junk event ∧
      place' = (left, events)

/-- The rounds that the outbound thread may make; once `stop` has been seen it stays set. -/
def Server.Round (server : Server) (program : Code Unit) : Prop :=
  ∃ env : RoundEnv, (server.stopSeen = true → env.stop = true) ∧
    ((server.pc = .polling ∧ program = pollRing env) ∨
      ∃ index sent, server.pc = .sending index sent ∧ program = retry index sent env)

def outboundLoop : Thread Server where
  Place := Unit
  starts server _ program _ := server.Round program

/-- The running server. -/
abbrev Running (queues : Nat) := Config (inboundLoop queues) outboundLoop

def Running.initial (queues : Nat) (items : Nat → WorkItem) : Running queues where
  state := .initial items
  first := ⟨(0, []), .done ()⟩
  second := ⟨(), .done ()⟩

end DpdkWrapper.Echo
