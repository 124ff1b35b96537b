import DpdkWrapper.Tcp.InboundThread

/-!
# Runs of uninterrupted calls

The inbound thread's work comes in tasks (the start of a poll, one packet, the
end of a poll) and the outbound thread's in calls.  Here each of them is executed
without interruption, and calls may come between any two tasks.  That includes
runs in which `poll` as a whole is uninterrupted.
-/

namespace DpdkWrapper.Tcp

open Threads Wire

/-- A piece of `poll`. -/
inductive Task where
  | beginPoll
  | packet (packet : RxPacket)
  | endPoll (env : FlushEnv)

/-- A call of the application on a `tcp_sender`. -/
inductive Call where
  | sendable (conn : ConnId)
  | sendSpace (conn : ConnId)
  | send (conn : ConnId) (bytes : List Byte) (env : SendEnv)
  | close (conn : ConnId) (env : CloseEnv)

def Task.code (k : TcpStack) : Task → Code Unit
  | beginPoll => Tcp.beginPoll
  | packet received => process k received
  | endPoll env => Tcp.endPoll k env

/-- The id a call is made on. -/
def Call.conn : Call → ConnId
  | sendable conn => conn
  | sendSpace conn => conn
  | send conn _ _ => conn
  | close conn _ => conn

/-- The code of a call; its result is in the log. -/
def Call.code (k : TcpStack) : Call → Code Unit
  | sendable conn => Tcp.sendable k conn >>= fun _ => pure ()
  | sendSpace conn => Tcp.sendSpace k conn >>= fun _ => pure ()
  | send conn bytes env => Tcp.send k conn bytes env >>= fun _ => pure ()
  | close conn env => Tcp.close k conn env

/-- Where the inbound thread is: between polls, or in a poll after some packets
of its burst. -/
inductive Phase where
  | idle
  | polling (count : Nat)
  deriving DecidableEq, Repr

/-- The order of tasks within a poll. -/
def Phase.next : Phase → Task → Option Phase
  | idle, .beginPoll => some (polling 0)
  | polling count, .packet _ => if count < maxBurst then some (polling (count + 1)) else none
  | polling _, .endPoll _ => some idle
  | _, _ => none

/-- The tasks with the phases that they lead from and to. -/
inductive Phase.Next : Phase → Task → Phase → Prop
  | beginPoll : Next idle .beginPoll (polling 0)
  | packet {count : Nat} (packet : RxPacket) (more : count < maxBurst) :
      Next (polling count) (.packet packet) (polling (count + 1))
  | endPoll {count : Nat} (env : FlushEnv) : Next (polling count) (.endPoll env) idle

theorem Phase.next_cases {phase phase' : Phase} {task : Task}
    (enabled : phase.next task = some phase') : phase.Next task phase' := by
  cases phase with
  | idle =>
      cases task <;> cases enabled
      exact .beginPoll
  | polling count =>
      cases task with
      | beginPoll => cases enabled
      | packet packet =>
          by_cases more : count < maxBurst
          · cases (if_pos more).symm.trans enabled
            exact .packet packet more
          · cases (if_neg more).symm.trans enabled
      | endPoll env =>
          cases enabled
          exact .endPoll env

/-- A state between tasks and calls. -/
structure State where
  phase : Phase
  memory : Memory

def State.initial (k : TcpStack) : State :=
  ⟨.idle, Memory.initial k⟩

/-- What happens next. -/
inductive Action where
  | task (task : Task)
  | call (call : Call)

/-- One uninterrupted task or call. -/
inductive Act (k : TcpStack) : State → Action → State → Prop
  | task {phase phase' : Phase} {mem : Memory} (task : Task)
      (enabled : phase.next task = some phase') :
      Act k ⟨phase, mem⟩ (.task task) ⟨phase', ((task.code k).run mem).2⟩
  | call {phase : Phase} {mem : Memory} (call : Call) :
      Act k ⟨phase, mem⟩ (.call call) ⟨phase, ((call.code k).run mem).2⟩

/-- A finite run whose actions all satisfy `ok` in the state they start from. -/
inductive Run (k : TcpStack) (ok : State → Action → Prop) (start : State) : State → Prop
  | refl : Run k ok start start
  | step {state state' : State} {action : Action} (run : Run k ok start state)
      (act : Act k state action state') (allowed : ok state action) : Run k ok start state'

/-- The states of all runs from the initial state. -/
def Reachable (k : TcpStack) (state : State) : Prop :=
  Run k (fun _ _ => True) (State.initial k) state

/-- Invariant rule: what holds at the start and is kept by every allowed action
holds in every state of a run. -/
theorem Run.invariant {k : TcpStack} {ok : State → Action → Prop} {start state : State}
    (holds : State → Prop) (run : Run k ok start state) (base : holds start)
    (keeps : ∀ state action state', holds state → Act k state action state' →
      ok state action → holds state') : holds state := by
  induction run with
  | refl => exact base
  | step _ act allowed ih => exact keeps _ _ _ ih act allowed

/-- What does not hold at the start of a run and holds at its end became true by one
action. -/
theorem Run.first {k : TcpStack} {ok : State → Action → Prop} {start state : State}
    (holds : State → Prop) (run : Run k ok start state) (before : ¬holds start)
    (now : holds state) :
    ∃ last action next, Run k ok start last ∧ Act k last action next ∧ Run k ok next state ∧
      ¬holds last ∧ holds next := by
  induction run with
  | refl => exact absurd now before
  | @step state state' action run act allowed ih =>
      by_cases already : holds state
      · obtain ⟨last, earlier, next, left, turn, right, changes⟩ := ih already
        exact ⟨last, earlier, next, left, turn, right.step act allowed, changes⟩
      · exact ⟨state, action, state', run, act, .refl, already, now⟩

/-! ## A whole poll -/

theorem run_packets (k : TcpStack) {start : State} (packets : List RxPacket) :
    ∀ (count : Nat) (mem : Memory), count + packets.length ≤ maxBurst →
      Run k (fun _ _ => True) start ⟨.polling count, mem⟩ →
      Run k (fun _ _ => True) start
        ⟨.polling (count + packets.length),
          ((Program.forEach (process k) packets).run mem).2⟩ := by
  induction packets with
  | nil => exact fun _ _ _ run => run
  | cons packet rest ih =>
      intro count mem fits run
      rw [List.length_cons] at fits ⊢
      have enabled : (Phase.polling count).next (.packet packet) =
          some (.polling (count + 1)) := by
        simp only [Phase.next]
        rw [if_pos (by omega)]
      have next := ih (count + 1) _ (by omega) (run.step (.task _ enabled) trivial)
      rw [Program.run_forEach_cons]
      rwa [Nat.add_assoc, Nat.add_comm 1] at next

/-- An uninterrupted `poll` is such a run. -/
theorem run_poll (k : TcpStack) {start : State} {mem : Memory} (burst : Burst)
    (env : FlushEnv) (run : Run k (fun _ _ => True) start ⟨.idle, mem⟩) :
    Run k (fun _ _ => True) start ⟨.idle, ((poll k burst env).run mem).2⟩ := by
  have began := run.step (.task .beginPoll rfl) trivial
  have processed := run_packets k burst.packets 0 _
    (by rw [Nat.zero_add]; exact burst.size_le) began
  have ended := processed.step (.task (.endPoll env) rfl) trivial
  simpa [poll, Task.code, viewRx] using ended

/-! ## A small stack -/

/-- A stack with one connection slot that listens on port 80 of 10.0.0.1. -/
def singleSlot : TcpStack where
  localMac := 0x020000000001
  localIp := 0x0a000001
  mss := 1460
  maxConnections := 1
  receiveWindow := 65535
  verifyChecksums := false
  listening := [80]
  mbufRoom := 2048
  maxConnections_pos := by decide
  maxConnections_lt := by decide
  mss_ne_zero := by decide

/-- A frame from port 4000 of 10.0.0.2 to that stack, without options. -/
def peerFrame (seq ack : BitVec 32) (flags : Byte) (window : BitVec 16)
    (payload : List Byte) : List Byte :=
  toBytes 6 0x020000000001 ++ toBytes 6 0x020000000002 ++ toBytes 2 0x0800 ++
  toBytes 2 0x4500 ++ toBytes 2 (40 + payload.length) ++ toBytes 4 0 ++
  toBytes 2 0x4006 ++ toBytes 2 0 ++ toBytes 4 0x0a000002 ++ toBytes 4 0x0a000001 ++
  toBytes 2 4000 ++ toBytes 2 80 ++ toBytes 4 seq.toNat ++ toBytes 4 ack.toNat ++
  [0x50, flags] ++ toBytes 2 window.toNat ++ toBytes 4 0 ++ payload

/-- The same as a packet, received while the pool has buffers. -/
def peerPacket (seq ack : BitVec 32) (flags : Byte) (window : BitVec 16)
    (payload : List Byte) : RxPacket :=
  ⟨peerFrame seq ack flags window payload, true, 0, true⟩

/-- The segment that such a packet is decoded to. -/
def peerSegment (seq ack : BitVec 32) (flags : Byte) (window : BitVec 16)
    (payload : List Byte) (small : payload.length < 65536) : Segment where
  ethSrc := 0x020000000002
  srcIp := 0x0a000002
  srcPort := 4000
  dstPort := 80
  seq := seq
  ack := ack
  flags := flags
  window := window
  payload := payload
  options := []
  payload_lt := small
  srcIp_ne_zero := by decide

/-- That stack at the start of its first poll. -/
def singleSlotPolling : State :=
  ⟨.polling 0, (beginPoll.run (Memory.initial singleSlot)).2⟩

/-- The same after a SYN with sequence number 7; ours is 0. -/
def singleSlotAfterSyn : State :=
  ⟨.polling 1,
    ((process singleSlot (peerPacket 7 0 synFlag 1000 [])).run singleSlotPolling.memory).2⟩

theorem singleSlotPolling_reachable : Reachable singleSlot singleSlotPolling :=
  Run.refl.step (.task .beginPoll rfl) trivial

theorem singleSlotAfterSyn_act :
    Act singleSlot singleSlotPolling (.task (.packet (peerPacket 7 0 synFlag 1000 [])))
      singleSlotAfterSyn :=
  .task (.packet _) rfl

/-- The same after the final ACK of the handshake. -/
def singleSlotAccepted : State :=
  ⟨.polling 2,
    ((process singleSlot (peerPacket 8 1 ackFlag 1000 [])).run singleSlotAfterSyn.memory).2⟩

theorem singleSlotAccepted_reachable : Reachable singleSlot singleSlotAccepted :=
  (singleSlotPolling_reachable.step singleSlotAfterSyn_act trivial).step
    (.task (.packet (peerPacket 8 1 ackFlag 1000 [])) rfl) trivial

end DpdkWrapper.Tcp
