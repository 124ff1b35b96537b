import DpdkWrapper.Mbufs.Heap
import DpdkWrapper.Threads.Parallel

/-!
# The packets of the TCP stack

What `poll`, `send` and `close` do with packets.  The inbound thread queues its answers in the
array `control` and sends them at the end of a poll; the outbound thread builds bursts of
segments in the array `segs`, and `close` holds on to its FIN until a queue takes it.  What
the packets say, and which received packet is answered, is left open: every choice is
possible.

The driver is a third party.  It frees the mbufs it has sent and fills the receive ring from
the same pool, between any two steps of the threads.
-/

namespace DpdkWrapper.Mbufs

open Threads

/-- The memory of both threads, with `n_control` and `stats.control_tx_dropped`.  `offered`
counts the calls of `queue_control`, and `sent` the packets of `control` that the driver has
taken. -/
structure Buffers where
  heap : Heap
  nControl : Nat
  dropped : Nat
  offered : Nat
  sent : Nat

abbrev Code := Program Buffers

/-! ## Variables -/

/-- `control` of the receiver. -/
def control : Name := .packets 0

/-- The parameter of `queue_control`, and what `build_segment` returns to the inbound
thread. -/
def pkt : Name := .packets 1

/-- `rst` in `send_rst_for` and `reply` in `process`. -/
def answer : Name := .packets 2

/-- `segs` in `send`. -/
def segs : Name := .packets 3

/-- `fin` in `close`. -/
def fin : Name := .packets 4

/-- What `build_segment` returns to the outbound thread. -/
def built : Name := .packets 5

/-- The burst that is polled. -/
def burst : Name := .burst 0

/-- `max_control`. -/
def maxControl : Nat := 2 * maxSize

/-- `kCloseRetries`. -/
def closeRetries : Nat := 1 <<< 20

namespace Buffers

/-- After the construction of the receiver. -/
def initial : Buffers :=
  ⟨Heap.initial.declare control maxControl, 0, 0, 0, 0⟩

def onHeap (action : Heap → Heap) (buffers : Buffers) : Buffers :=
  { buffers with heap := action buffers.heap }

/-- A packet is empty. -/
def isNull (address : Address) (buffers : Buffers) : Bool :=
  buffers.heap.cell address == none

end Buffers

/-- An operation on the memory. -/
def act (action : Heap → Heap) : Code Unit :=
  Program.modify (Buffers.onHeap action)

/-! ## Building -/

/-- Which mbuf the pool yields, if any, and whether everything fits into it. -/
structure BuildEnv where
  choice : Option Mbuf
  fits : Bool
  deriving DecidableEq, Repr

/-- `build_segment` and `build_arp`: where an append fails, the packet is destroyed and an
empty one returned. -/
def build (name : Name) (env : BuildEnv) : Code Unit := do
  act (·.get name env.choice)
  Program.when (!env.fits) (act (·.clear (name, 0)))

/-! ## The inbound thread -/

/-- The first part of `queue_control`. -/
def enqueue (buffers : Buffers) : Buffers :=
  if buffers.isNull (pkt, 0) || buffers.nControl == maxControl then
    { buffers with dropped := buffers.dropped + 1, offered := buffers.offered + 1 }
  else
    { buffers with
      heap := buffers.heap.moveAssign (control, buffers.nControl) (pkt, 0)
      nControl := buffers.nControl + 1
      offered := buffers.offered + 1 }

/-- `queue_control`; its parameter ends with the call. -/
def queueControl : Code Unit := do
  Program.modify enqueue
  act (·.destroy pkt)

/-- An answer to a packet. -/
inductive Reply where
  /-- `send_syn_ack`, and the body of the loop in `flush_acks`. -/
  | segment (env : BuildEnv)
  /-- `send_rst_for`. -/
  | rst (env : BuildEnv)
  /-- An ARP request for the stack's address. -/
  | arp (env : BuildEnv)
  deriving DecidableEq, Repr

/-- `answer` is assigned what is built. -/
def buildAnswer (env : BuildEnv) : Code Unit := do
  act (·.declare answer 1)
  build pkt env
  act (·.moveAssign (answer, 0) (pkt, 0))
  act (·.destroy pkt)

/-- `queue_control(std::move(answer))`. -/
def queueAnswer : Code Unit := do
  act (·.moveConstruct pkt (answer, 0))
  queueControl

def respond : Reply → Code Unit
  | .segment env => do
      build pkt env
      queueControl
  | .rst env => do
      buildAnswer env
      queueAnswer
      act (·.destroy answer)
  | .arp env => do
      buildAnswer env
      -- without an mbuf `handle_arp` does not return `replied`
      let null ← Program.read (·.isNull (answer, 0))
      Program.when (!null) queueAnswer
      act (·.destroy answer)

/-- The call of `send_burst` in `flush_control`. -/
def sendControl (count room : Nat) (buffers : Buffers) : Nat × Buffers :=
  let result := buffers.heap.sendBurst control 0 count room
  (result.1, { buffers with heap := result.2, sent := buffers.sent + result.1 })

/-- `flush_control`. -/
def flushControl (room : Nat) : Code Unit := do
  let count ← Program.read (·.nControl)
  if count = 0 then
    pure ()
  else do
    let sent ← Program.atomically (sendControl count room)
    Program.modify fun buffers => { buffers with dropped := buffers.dropped + (count - sent) }
    Program.forEach (fun i => act (·.clear (control, i))) (List.range' sent (count - sent))
    Program.modify fun buffers => { buffers with nControl := 0 }

/-- What happens in one round of the inbound thread. -/
structure PollEnv where
  maxCount : Nat
  arriving : List Mbuf
  replies : List Reply
  acks : List BuildEnv
  room : Nat

/-- A burst is received, polled and destroyed. -/
def inboundRound (env : PollEnv) : Code Unit := do
  act (·.receiveBurst burst env.maxCount env.arriving)
  Program.forEach respond env.replies
  Program.forEach (fun ack => respond (.segment ack)) env.acks
  flushControl env.room
  act (·.destroy burst)

/-! ## The outbound thread -/

/-- The temporary that `build_segment` returns is assigned to a packet. -/
def assignBuilt (target : Address) (env : BuildEnv) : Code Unit := do
  build built env
  act (·.moveAssign target (built, 0))
  act (·.destroy built)

/-- `tx_queue::send_burst` of the outbound thread. -/
def sendFrom (name : Name) (count room : Nat) (buffers : Buffers) : Nat × Buffers :=
  let result := buffers.heap.sendBurst name 0 count room
  (result.1, { buffers with heap := result.2 })

/-- The inner loop of `send`, with `room` places left in `segs`: how many segments there are,
the offset behind the last one, and `seg_end`. -/
def fillSegs (limit mss : Nat) (env : Nat → BuildEnv) :
    Nat → Nat → Nat → List Nat → Code (Nat × Nat × List Nat)
  | 0, n, off, ends => pure (n, off, ends)
  | room + 1, n, off, ends =>
      if off < limit then do
        assignBuilt (segs, n) (env n)
        let null ← Program.read (·.isNull (segs, n))
        if null then
          pure (n, off, ends)
        else
          fillSegs limit mss env room (n + 1) (off + min mss (limit - off))
            (ends ++ [off + min mss (limit - off)])
      else
        pure (n, off, ends)

/-- What the pool and the queue do during `send`. -/
structure SendEnv where
  build : Nat → Nat → BuildEnv
  room : Nat → Nat

/-- The outer loop of `send`, at burst number `number` with `done` bytes taken. -/
def sendLoop (limit mss : Nat) (env : SendEnv) : Nat → Nat → Nat → Code Nat
  | 0, _, done => pure done
  | fuel + 1, number, done =>
      if done < limit then do
        act (·.declare segs maxSize)
        let filled ← fillSegs limit mss (env.build number) maxSize 0 done []
        if filled.1 = 0 then do
          act (·.destroy segs)
          pure done
        else do
          let sent ← Program.atomically (sendFrom segs filled.1 (env.room number))
          act (·.destroy segs)
          if sent < filled.1 then
            pure (if sent > 0 then filled.2.2.getD (sent - 1) done else done)
          else if filled.1 < maxSize && filled.2.1 < limit then
            pure filled.2.1
          else
            sendLoop limit mss env fuel (number + 1) filled.2.1
      else
        pure done

/-- What the pool and the queue do during `close`. -/
structure CloseEnv where
  build : Nat → BuildEnv
  room : Nat → Nat

/-- The attempts of `close`. -/
def finLoop (env : CloseEnv) : Nat → Nat → Code Unit
  | 0, _ => pure ()
  | retries + 1, attempt => do
      let null ← Program.read (·.isNull (fin, 0))
      Program.when null (assignBuilt (fin, 0) (env.build attempt))
      let still ← Program.read (·.isNull (fin, 0))
      if still then
        finLoop env retries (attempt + 1)
      else do
        let sent ← Program.atomically (sendFrom fin 1 (env.room attempt))
        if sent = 1 then
          pure ()
        else
          finLoop env retries (attempt + 1)

/-- The FIN of `close`. -/
def closeFin (env : CloseEnv) : Code Unit := do
  act (·.declare fin 1)
  finLoop env closeRetries 0
  act (·.destroy fin)

/-! ## The threads -/

/-- The inbound thread polls. -/
def inbound : Thread Buffers where
  Place := Unit
  starts _ _ program _ := ∃ env, program = inboundRound env

/-- The outbound thread sends and closes. -/
def outbound : Thread Buffers where
  Place := Unit
  starts _ _ program _ :=
    (∃ limit mss env fuel, program = (do let _ ← sendLoop limit mss env fuel 0 0)) ∨
    ∃ env, program = closeFin env

/-- What the driver does on its own, at any moment: it gives back an mbuf that has been sent,
or takes one from the pool to receive into. -/
inductive DriverMove (buffers : Buffers) : Buffers → Prop
  | complete (mbuf : Mbuf) : DriverMove buffers (buffers.onHeap (·.complete mbuf))
  | refill (mbuf : Mbuf) : DriverMove buffers (buffers.onHeap (·.refill mbuf))

abbrev Running := Config inbound outbound

/-- Both threads before their first round. -/
def Running.initial : Running :=
  ⟨Buffers.initial, ⟨(), .done ()⟩, ⟨(), .done ()⟩⟩

/-- The steps of both threads and of the driver, in any order. -/
abbrev Runs : Running → Running → Prop :=
  InterleavesBeside DriverMove fun _ _ => True

end DpdkWrapper.Mbufs
