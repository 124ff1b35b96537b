import DpdkWrapper.Tcp.Parsing
import DpdkWrapper.Tcp.Projection

/-!
# What becomes of a packet

`process` answers a packet without involving a connection, gives it to the connection
of its tuple, or opens a connection for it.  `Dispatch` lists these cases with what is
known in each of them.

Later proofs go by cases over `Dispatch` and do not look at `process` again.  That a segment
finds at most one connection is part of it: two slots in the flow table with one tuple would
have one key.
-/

namespace DpdkWrapper.Tcp

open Arp Threads Wire

/-- The control buffer with one more packet, unless there is none or no room. -/
def queued (control : List Packet) : Option Packet → List Packet
  | none => control
  | some packet => if control.length = maxControl then control else control ++ [packet]

theorem queueControl_control (rx : Receiver) (packet : Option Packet) :
    (rx.queueControl packet).control = queued rx.control packet := by
  cases packet with
  | none => rfl
  | some packet =>
      rw [Receiver.queueControl, queued]
      split <;> rfl

@[simp]
theorem queueControl_ackList (rx : Receiver) (packet : Option Packet) :
    (rx.queueControl packet).ackList = rx.ackList := by
  unfold Receiver.queueControl
  split <;> try split
  all_goals rfl

@[simp]
theorem queueControl_events (rx : Receiver) (packet : Option Packet) :
    (rx.queueControl packet).events = rx.events := by
  unfold Receiver.queueControl
  split <;> try split
  all_goals rfl

/-- A segment is addressed to a session's connection. -/
structure Session.Matches (session : Session) (seg : Segment) : Prop where
  peerIp : seg.srcIp = session.conn.peerIp
  peerPort : seg.srcPort = session.conn.peerPort
  localPort : seg.dstPort = session.conn.localPort

/-- A packet is answered or not, and no connection takes part. -/
structure Answers (reply : Option Packet) (mem mem' : Memory) : Prop where
  tx : mem'.tx = mem.tx
  slots : mem'.rx.slots = mem.rx.slots
  flows : mem'.rx.flows = mem.rx.flows
  freeSlots : mem'.rx.freeSlots = mem.rx.freeSlots
  awaitingRelease : mem'.rx.awaitingRelease = mem.rx.awaitingRelease
  ackList : mem'.rx.ackList = mem.rx.ackList
  finalizeList : mem'.rx.finalizeList = mem.rx.finalizeList
  events : mem'.rx.events = mem.rx.events
  log : mem'.rx.log = mem.rx.log
  control : mem'.rx.control = queued mem.rx.control reply

namespace Answers

variable {reply : Option Packet} {mem mem' : Memory}

theorem refl (mem : Memory) : Answers none mem mem :=
  ⟨rfl, rfl, rfl, rfl, rfl, rfl, rfl, rfl, rfl, rfl⟩

theorem count (mem : Memory) (counter : Counter) :
    Answers none mem ⟨mem.rx.count counter, mem.tx⟩ :=
  ⟨rfl, rfl, rfl, rfl, rfl, rfl, rfl, rfl, rfl, rfl⟩

theorem queueControl (rx : Receiver) (tx : Sender) (reply : Option Packet) :
    Answers reply ⟨rx, tx⟩ ⟨rx.queueControl reply, tx⟩ where
  tx := rfl
  slots := by simp
  flows := by simp
  freeSlots := by simp
  awaitingRelease := by simp
  ackList := by simp
  finalizeList := by simp
  events := by simp
  log := by simp
  control := queueControl_control rx reply

/-- Counters do not matter. -/
theorem of_count {rx : Receiver} {tx : Sender} {counter : Counter}
    (answers : Answers reply ⟨rx.count counter, tx⟩ mem') : Answers reply ⟨rx, tx⟩ mem' :=
  ⟨answers.tx, answers.slots, answers.flows, answers.freeSlots, answers.awaitingRelease,
    answers.ackList, answers.finalizeList, answers.events, answers.log, answers.control⟩

theorem session (answers : Answers reply mem mem') (i : Nat) :
    mem'.session i = mem.session i := by
  simp only [Memory.session, answers.tx, answers.slots, answers.log]

end Answers

/-- The RST that answers a segment, unless it is one itself. -/
def refusal (k : TcpStack) (seg : Segment) (pool : Bool) : Option TxSegment :=
  if seg.has rstFlag then none else rstFor k seg pool

/-- A segment that is refused is answered with a reset, or not at all. -/
theorem sendRstFor_answers (k : TcpStack) (rx : Receiver) (tx : Sender) (seg : Segment)
    (pool : Bool) :
    Answers ((refusal k seg pool).map .tcp) ⟨rx, tx⟩ ⟨sendRstFor k rx seg pool, tx⟩ := by
  unfold refusal sendRstFor
  split
  · exact .refl _
  · exact .of_count (.queueControl _ tx _)

/-- ARP concerns no connection. -/
theorem processArp_answers (k : TcpStack) (packet : RxPacket) (mem : Memory) :
    ∃ reply : Option ArpFrame, Answers (reply.map .arp) mem
      ⟨processArp k packet mem.rx, mem.tx⟩ := by
  obtain ⟨outcome, handled⟩ := Option.isSome_iff_exists.mp
    (handleArp_reads packet.frame k.localMac k.localIp mem.rx.neighbors k.mbufRoom
      packet.pool).succeeds
  rw [processArp, handled]
  dsimp only
  have learned : ∀ reply mem',
      Answers reply ⟨{ mem.rx with neighbors := outcome.neighbors }, mem.tx⟩ mem' →
        Answers reply mem mem' := fun _ _ answers =>
    ⟨answers.tx, answers.slots, answers.flows, answers.freeSlots, answers.awaitingRelease,
      answers.ackList, answers.finalizeList, answers.events, answers.log, answers.control⟩
  split
  · exact ⟨outcome.reply, learned _ _ (.queueControl _ mem.tx _)⟩
  · exact ⟨none, learned _ _ (.refl _)⟩

/-- A SYN for a port that is listened on. -/
def requests (k : TcpStack) (seg : Segment) : Bool :=
  seg.has synFlag && !seg.has ackFlag && !seg.has rstFlag && k.listening.contains seg.dstPort

/-- No slot with a flow entry has the tuple of the segment. -/
def Unknown (k : TcpStack) (mem : Memory) (seg : Segment) : Prop :=
  ∀ i < k.maxConnections, (mem.rx.summary i).InFlow → ¬(mem.session i).Matches seg

/-- The cases of `process`. -/
inductive Dispatch (k : TcpStack) (packet : RxPacket) (mem : Memory) : Memory → Prop
  | other {reply : Option ArpFrame} {mem' : Memory}
      (undecoded : ∀ seg, decode k packet.frame packet.contiguous ≠ some (.segment seg))
      (answers : Answers (reply.map .arp) mem mem') : Dispatch k packet mem mem'
  | refused {seg : Segment} {mem' : Memory}
      (decoded : decode k packet.frame packet.contiguous = some (.segment seg))
      (unknown : Unknown k mem seg)
      (unopened : requests k seg = false ∨ mem.rx.freeSlots = [])
      (answers : Answers ((refusal k seg packet.pool).map .tcp) mem mem') :
      Dispatch k packet mem mem'
  | opened {seg : Segment} {idx : Nat} {rest : List Nat} {peerMss : BitVec 16}
      (decoded : decode k packet.frame packet.contiguous = some (.segment seg))
      (unknown : Unknown k mem seg) (requested : requests k seg = true)
      (free : mem.rx.freeSlots = idx :: rest)
      (mss : parseMssOption seg.options = some peerMss) :
      Dispatch k packet mem
        ((openSlot k idx seg peerMss packet.rand packet.pool).run mem).2
  | segment {seg : Segment} {idx : Nat}
      (decoded : decode k packet.frame packet.contiguous = some (.segment seg))
      (inside : idx < k.maxConnections) (inFlow : (mem.rx.summary idx).InFlow)
      (named : (mem.session idx).Matches seg) :
      Dispatch k packet mem ((processSegment k idx seg packet.pool).run mem).2

section

variable {k : TcpStack} {packet : RxPacket} {mem : Memory}

theorem matches_iff_key (i : Nat) (seg : Segment) :
    (mem.session i).Matches seg ↔
      (mem.rx.summary i).key = FlowTable.key seg.srcIp seg.srcPort seg.dstPort := by
  have key : (mem.rx.summary i).key = FlowTable.key (mem.rx.slots i).peerIp
      (mem.rx.slots i).peerPort (mem.rx.slots i).localPort := rfl
  rw [key, FlowTable.key_inj]
  constructor
  · rintro ⟨peerIp, peerPort, localPort⟩
    exact ⟨peerIp.symm, peerPort.symm, localPort.symm⟩
  · rintro ⟨peerIp, peerPort, localPort⟩
    exact ⟨peerIp.symm, peerPort.symm, localPort.symm⟩

/-- A segment is for at most one connection in the flow table. -/
theorem eq_of_matches (accounts : Accounting k mem.rx) {i j : Nat} {seg : Segment}
    (iInside : i < k.maxConnections) (jInside : j < k.maxConnections)
    (iInFlow : (mem.rx.summary i).InFlow) (jInFlow : (mem.rx.summary j).InFlow)
    (iNamed : (mem.session i).Matches seg) (jNamed : (mem.session j).Matches seg) :
    i = j := by
  obtain ⟨iFree, iAwaiting⟩ := (accounts.inFlow_iff iInside).mp iInFlow
  obtain ⟨jFree, jAwaiting⟩ := (accounts.inFlow_iff jInside).mp jInFlow
  obtain ⟨iPeer, iPort, iLocal⟩ := iNamed
  obtain ⟨jPeer, jPort, jLocal⟩ := jNamed
  exact accounts.partitioned.tuples i iInside j jInside iFree iAwaiting jFree jAwaiting
    (iPeer.symm.trans jPeer) (iPort.symm.trans jPort) (iLocal.symm.trans jLocal)

/-- A SYN without a connection opens one, if a slot is free. -/
theorem openConnection_dispatch {seg : Segment}
    (decoded : decode k packet.frame packet.contiguous = some (.segment seg))
    (unknown : Unknown k mem seg) (requested : requests k seg = true) :
    Dispatch k packet mem
      ((openConnection k seg packet.rand packet.pool).run mem).2 := by
  rw [openConnection, run_viewRx_bind]
  cases free : mem.rx.freeSlots with
  | nil =>
      exact .refused decoded unknown (Or.inr free)
        (.of_count (sendRstFor_answers k _ mem.tx seg packet.pool))
  | cons idx rest =>
      obtain ⟨peerMss, parsed⟩ := Option.isSome_iff_exists.mp (parseMssOption_isSome seg.options)
      dsimp only
      rw [parsed]
      exact .opened decoded unknown requested free parsed

/-- What a segment does: it goes to its connection, opens one, or is refused. -/
theorem processTcp_dispatch (accounts : Accounting k mem.rx) {seg : Segment}
    (decoded : decode k packet.frame packet.contiguous = some (.segment seg)) :
    Dispatch k packet mem ((processTcp k seg packet.rand packet.pool).run mem).2 := by
  have small : k.maxConnections ≤ FlowTable.npos :=
    Nat.le_trans (Nat.le_of_lt k.maxConnections_lt) (by decide)
  rw [processTcp, run_viewRx_bind]
  rcases accounts.flows.find small (FlowTable.key_ne_zero seg.srcIp_ne_zero seg.srcPort
    seg.dstPort) with ⟨idx, found, known, inside, inFlow, named⟩ | ⟨absent, others⟩
  · rw [found]
    dsimp only
    rw [if_pos (bne_iff_ne.mpr known)]
    exact .segment decoded inside inFlow ((matches_iff_key idx seg).mpr named)
  · have unknown : Unknown k mem seg := fun i inside inFlow named =>
      others i inside inFlow ((matches_iff_key i seg).mp named)
    rw [absent]
    dsimp only
    rw [if_neg (by simp)]
    split
    · rename_i requested
      exact openConnection_dispatch decoded unknown requested
    · rename_i unrequested
      exact .refused decoded unknown (Or.inl (Bool.eq_false_iff.mpr unrequested))
        (sendRstFor_answers k mem.rx mem.tx seg packet.pool)

/-- Every packet is dispatched in one of these ways. -/
theorem process_dispatch (accounts : Accounting k mem.rx) (packet : RxPacket) :
    Dispatch k packet mem ((process k packet).run mem).2 := by
  obtain ⟨verdict, decoded⟩ := Option.isSome_iff_exists.mp
    (decode_isSome k packet.frame packet.contiguous)
  rw [process, decoded]
  cases verdict with
  | ignored =>
      have ignores : Answers ((none : Option ArpFrame).map .arp) mem mem := .refl mem
      exact .other (by simp [decoded]) ignores
  | dropped counter =>
      have drops : Answers ((none : Option ArpFrame).map .arp) mem
          ⟨mem.rx.count counter, mem.tx⟩ := .count mem counter
      exact .other (by simp [decoded]) drops
  | arp =>
      obtain ⟨reply, answers⟩ := processArp_answers k packet mem
      exact .other (by simp [decoded]) answers
  | segment seg => exact processTcp_dispatch accounts decoded

end

end DpdkWrapper.Tcp
