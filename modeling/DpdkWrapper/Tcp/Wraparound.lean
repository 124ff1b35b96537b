import DpdkWrapper.Tcp.Ownership
import DpdkWrapper.Tcp.PollLists
import DpdkWrapper.Tcp.SessionCalls

/-!
# Generations come again

A generation has 32 bits.  Between two loads of `lookup` a slot can be opened 2^32 - 1 times,
by SYNs that are followed by RSTs; then it has the old generation again, and an id that was
released long ago is taken for that of a connection which nobody has accepted.  Such a
connection can be recycled while the call goes on.
-/

namespace DpdkWrapper.Tcp

open Threads Wire

/-! ## A SYN and a RST -/

/-- A SYN of the small stack's peer. -/
def synPacket : RxPacket :=
  peerPacket 7 0 synFlag 1000 []

def synSegment : Segment :=
  peerSegment 7 0 synFlag 1000 [] (by decide)

/-- The RST that undoes it. -/
def rstPacket : RxPacket :=
  peerPacket 8 0 rstFlag 0 []

def rstSegment : Segment :=
  peerSegment 8 0 rstFlag 0 [] (by decide)

theorem decode_synPacket :
    decode singleSlot synPacket.frame synPacket.contiguous = some (.segment synSegment) := by
  decide

theorem decode_rstPacket :
    decode singleSlot rstPacket.frame rstPacket.contiguous = some (.segment rstSegment) := by
  decide

section Packets

variable {mem : Memory}

/-- A SYN opens the slot if it is free. -/
theorem process_synPacket (orderly : ReceiverInvariant singleSlot mem)
    (free : (mem.rx.slots 0).state = .free) :
    ((process singleSlot synPacket).run mem).2.session 0 =
      (mem.session 0).openFor singleSlot synSegment 536 0 := by
  have accounts := orderly.1
  have listed : 0 ∈ mem.rx.freeSlots :=
    (accounts.partitioned.mem_freeSlots 0).mpr ⟨by decide, free⟩
  have dispatch := process_dispatch accounts synPacket
  generalize ((process singleSlot synPacket).run mem).2 = after at dispatch ⊢
  cases dispatch with
  | other undecoded => exact absurd decode_synPacket (undecoded synSegment)
  | @refused seg _ decoded unknown unopened =>
      rw [decode_synPacket] at decoded
      cases decoded
      rcases unopened with unrequested | empty
      · exact absurd unrequested (by decide)
      · rw [empty] at listed
        cases listed
  | @opened seg idx rest peerMss decoded unknown requested first parsed =>
      rw [decode_synPacket] at decoded
      cases decoded
      cases parsed
      have inside : idx < 1 := by
        refine ((accounts.partitioned.mem_freeSlots idx).mp ?_).1
        rw [first]
        exact List.mem_cons_self
      obtain rfl : idx = 0 := Nat.lt_one_iff.mp inside
      exact (openSlot_sessions singleSlot 0 synSegment 536 0 synPacket.pool mem 0).trans
        (if_pos rfl)
  | @segment seg idx decoded inside inFlow =>
      obtain rfl : idx = 0 := Nat.lt_one_iff.mp inside
      exact absurd free (accounts.ne_free_of_inFlow inside inFlow)

theorem reset_opened (session : Session) :
    (session.openFor singleSlot synSegment 536 0).processSegment singleSlot rstSegment =
      (session.openFor singleSlot synSegment 536 0).setState .free := by
  have acceptable : rstAcceptable singleSlot
      (session.openFor singleSlot synSegment 536 0).conn rstSegment = true := by
    change (seqGeq 8 8 && seqLt 8 (8 + singleSlot.receiveWindow.setWidth 32)) = true
    decide
  have synced : (session.openFor singleSlot synSegment 536 0).syncOutFlags =
      session.openFor singleSlot synSegment 536 0 := by
    rw [Session.syncOutFlags, if_neg]
    exact Bool.eq_false_iff.mp hasFinSent_zero
  have pending : (session.openFor singleSlot synSegment 536 0).conn.state = .synReceived := rfl
  rw [Session.processSegment, synced]
  simp only [pending]
  rw [Session.processHandshake, if_pos (by decide), if_pos acceptable]

/-- A RST frees it again. -/
theorem process_rstPacket (orderly : ReceiverInvariant singleSlot mem) {session : Session}
    (pending : mem.session 0 = session.openFor singleSlot synSegment 536 0) :
    ((process singleSlot rstPacket).run mem).2.session 0 =
      (session.openFor singleSlot synSegment 536 0).setState .free := by
  have state : (mem.rx.slots 0).state = .synReceived :=
    congrArg (fun session => session.conn.state) pending
  have named : (mem.session 0).Matches rstSegment := by
    rw [pending]
    exact ⟨rfl, rfl, rfl⟩
  rw [process_here orderly.1 (by decide) (by rw [state]; rintro ⟨⟩) (by rw [state]; rintro ⟨⟩)
    decode_rstPacket named, pending, reset_opened]

/-! ## Cycles -/

/-- The slot is free, and was last used with this generation. -/
structure Vacant (generation : BitVec 32) (mem : Memory) : Prop where
  orderly : ReceiverInvariant singleSlot mem
  free : (mem.session 0).conn.state = .free
  generation : (mem.session 0).conn.generation = generation

/-- A SYN has opened the slot with this generation. -/
structure Pending (generation : BitVec 32) (mem : Memory) : Prop where
  orderly : ReceiverInvariant singleSlot mem
  opened : ∃ session : Session, mem.session 0 = session.openFor singleSlot synSegment 536 0 ∧
    nextGeneration session.conn.generation = generation

/-- The start and the end of a poll leave a session alone that has not ended. -/
theorem ReceiverInvariant.session_eq {k : TcpStack} (orderly : ReceiverInvariant k mem)
    (task : Task) (other : ∀ packet, task ≠ .packet packet) {i : Nat}
    (unclosed : (mem.session i).conn.state ≠ .closed) :
    ((task.code k).run mem).2.session i = mem.session i := by
  have step := task.session orderly.1 orderly.2 i
  generalize ((task.code k).run mem).2.session i = session at step ⊢
  cases step with
  | idle => rfl
  | opened => exact absurd rfl (other _)
  | segment => exact absurd rfl (other _)
  | freed task closed => exact absurd closed unclosed

theorem Vacant.task {generation : BitVec 32} (vacant : Vacant generation mem) (task : Task)
    (other : ∀ packet, task ≠ .packet packet) :
    Vacant generation ((task.code singleSlot).run mem).2 := by
  have same := vacant.orderly.session_eq task other (i := 0) (by rw [vacant.free]; decide)
  refine ⟨vacant.orderly.task task, ?_, ?_⟩
  · rw [same, vacant.free]
  · rw [same, vacant.generation]

theorem Vacant.syn {generation : BitVec 32} (vacant : Vacant generation mem) :
    Pending (nextGeneration generation) ((process singleSlot synPacket).run mem).2 :=
  ⟨vacant.orderly.task (.packet synPacket), mem.session 0,
    process_synPacket vacant.orderly vacant.free, by rw [vacant.generation]⟩

theorem Pending.rst {generation : BitVec 32} (pending : Pending generation mem) :
    Vacant generation ((process singleSlot rstPacket).run mem).2 := by
  obtain ⟨session, opened, rfl⟩ := pending.opened
  have freed := process_rstPacket pending.orderly opened
  refine ⟨pending.orderly.task (.packet rstPacket), ?_, ?_⟩
  · rw [freed]
    rfl
  · rw [freed]
    rfl

/-- The queues have room, and nothing is sent. -/
def FlushEnv.quiet : FlushEnv where
  ackPool _ := true
  controlTake := maxControl

/-- A configuration of the small stack between polls, while a call may be under way. -/
def between (mem : Memory) (last : Option Task) (other : Busy (outboundThread singleSlot)) :
    System singleSlot anyTask :=
  ⟨mem, ⟨(.idle, last), .done ()⟩, other⟩

/-- One SYN within a poll. -/
theorem Vacant.opens {generation : BitVec 32} (vacant : Vacant generation mem)
    {last : Option Task} {other : Busy (outboundThread singleSlot)}
    (run : (between mem last other).Reachable) :
    ∃ mem', Pending (nextGeneration generation) mem' ∧
      System.Reachable (⟨mem', ⟨(.polling 1, some (.packet synPacket)), .done ()⟩, other⟩ :
        System singleSlot anyTask) := by
  have began := vacant.task .beginPoll (by simp)
  exact ⟨_, began.syn, (run.task .beginPoll rfl trivial).task (.packet synPacket) rfl trivial⟩

/-- The RST in the same poll, and the end of the poll. -/
theorem Pending.frees {generation : BitVec 32} (pending : Pending generation mem)
    {last : Option Task} {other : Busy (outboundThread singleSlot)}
    (run : System.Reachable (⟨mem, ⟨(.polling 1, last), .done ()⟩, other⟩ :
      System singleSlot anyTask)) :
    ∃ mem', Vacant generation mem' ∧
      (between mem' (some (.endPoll .quiet)) other).Reachable := by
  have ended := pending.rst.task (.endPoll .quiet) (by simp)
  exact ⟨_, ended,
    (run.task (.packet rstPacket) rfl trivial).task (.endPoll .quiet) rfl trivial⟩

theorem nextGeneration_ofNat {n : Nat} (small : n + 2 < 2 ^ 32) :
    nextGeneration (BitVec.ofNat 32 (n + 1)) = BitVec.ofNat 32 (n + 2) := by
  have next : BitVec.ofNat 32 (n + 1) + 1 = BitVec.ofNat 32 (n + 2) :=
    (BitVec.ofNat_add (n + 1) 1).symm
  rw [nextGeneration, next, if_neg]
  intro zero
  have number := congrArg BitVec.toNat zero
  rw [BitVec.toNat_ofNat, Nat.mod_eq_of_lt small] at number
  cases number

/-- Polls with a SYN and a RST take the generation through all its values. -/
theorem Vacant.cycles {last : Option Task} {other : Busy (outboundThread singleSlot)}
    (vacant : Vacant 1 mem) (run : (between mem last other).Reachable) (n : Nat)
    (small : n + 1 < 2 ^ 32) :
    ∃ mem' last', Vacant (BitVec.ofNat 32 (n + 1)) mem' ∧
      (between mem' last' other).Reachable := by
  induction n with
  | zero => exact ⟨mem, last, vacant, run⟩
  | succ n ih =>
      obtain ⟨mem, last, vacant, run⟩ := ih (by omega)
      obtain ⟨mem, pending, run⟩ := vacant.opens run
      obtain ⟨mem, vacant, run⟩ := pending.frees run
      rw [nextGeneration_ofNat small] at vacant
      exact ⟨mem, _, vacant, run⟩

end Packets

/-! ## A call across a whole cycle -/

theorem sendable_eq_load : ∃ rest : BitVec 32 → Code Bool, sendable singleSlot ⟨0, 1⟩ =
    viewRx (fun rx => (rx.slots 0).generation) >>= rest := by
  rw [sendable, lookup, findSlot, if_neg (by decide), Program.bind_assoc, Program.bind_assoc]
  exact ⟨_, rfl⟩

/-- `send_space` after `sendable`. -/
theorem sendSpace_eq_sendable : ∃ rest : Bool → Code Unit,
    (Call.sendSpace ⟨0, 1⟩).code singleSlot = sendable singleSlot ⟨0, 1⟩ >>= rest ∧
    ∀ mem, found singleSlot ⟨0, 1⟩ mem = false →
      .nullDereference ⟨0, 1⟩ ∈ ((rest true).run mem).2.tx.log := by
  refine ⟨_, Program.bind_assoc _ _ _, ?_⟩
  intro mem missing
  dsimp only
  rw [Program.run_bind', Bool.not_true, if_neg Bool.false_ne_true, run_lookup_bind, missing]
  exact List.mem_cons_self

theorem Pending.generation {generation : BitVec 32} {mem : Memory}
    (pending : Pending generation mem) : (mem.rx.slots 0).generation = generation := by
  obtain ⟨session, opened, same⟩ := pending.opened
  exact (congrArg (fun session => session.conn.generation) opened).trans same

/-- With the old generation, a connection that has only been opened passes for the one that
the id names. -/
theorem Pending.canSend {mem : Memory} (pending : Pending 1 mem) :
    canSend singleSlot ⟨0, 1⟩ mem = true := by
  have generation := pending.generation
  obtain ⟨session, opened, _⟩ := pending.opened
  have terminated : (mem.rx.slots 0).terminated = false :=
    congrArg (fun session => session.conn.terminated) opened
  have flags : (mem.tx.slots 0).outFlags = 0 :=
    congrArg (fun session => session.out.outFlags) opened
  rw [Tcp.canSend, found, generation, terminated, flags]
  decide

/-- After 2^32 - 1 openings the slot has its generation again. -/
theorem Vacant.wraps {mem : Memory} {last : Option Task}
    {other : Busy (outboundThread singleSlot)} (vacant : Vacant 1 mem)
    (run : (between mem last other).Reachable) :
    ∃ mem', Pending 1 mem' ∧
      System.Reachable (⟨mem', ⟨(.polling 1, some (.packet synPacket)), .done ()⟩, other⟩ :
        System singleSlot anyTask) := by
  have wrapped : nextGeneration (BitVec.ofNat 32 (0xfffffffe + 1)) = 1 := by decide
  obtain ⟨mem, last, vacant, run⟩ := vacant.cycles run 0xfffffffe (by decide)
  obtain ⟨mem, pending, run⟩ := vacant.opens run
  rw [wrapped] at pending
  exact ⟨mem, pending, run⟩

/-- A call of `send_space` on the old id, with its first load before all this. -/
theorem Vacant.dereferences {mem : Memory} {last : Option Task} {place : Option Call}
    (vacant : Vacant 1 mem) (accepted : Accepted mem ⟨0, 1⟩)
    (run : (between mem last ⟨place, .done ()⟩).Reachable) :
    ∃ system : System singleSlot anyTask, system.Reachable ∧
      .nullDereference ⟨0, 1⟩ ∈ system.state.tx.log := by
  obtain ⟨resume, loads⟩ := sendable_eq_load
  obtain ⟨rest, splits, dereferences⟩ := sendSpace_eq_sendable
  have called := run.begin (.sendSpace ⟨0, 1⟩) accepted
  rw [splits, loads, Program.bind_assoc] at called
  have loaded := called.runs
  have first : ((viewRx fun rx => (rx.slots 0).generation).run mem).1 = 1 := vacant.generation
  rw [first] at loaded
  obtain ⟨mem, pending, run⟩ := vacant.wraps loaded
  -- the other loads of `sendable` see the old generation again, and fresh flags
  obtain ⟨tx, sends, unsent⟩ := run_sendable singleSlot ⟨0, 1⟩ mem
  rw [loads, run_viewRx_bind, pending.generation, pending.canSend] at sends
  have judged := run.runs
  rw [sends] at judged
  have pending' : Pending 1 ⟨mem.rx, tx⟩ := by
    obtain ⟨session, opened, same⟩ := pending.opened
    exact ⟨judged.orderly, session, (unsent.session mem.rx 0).trans opened, same⟩
  -- the connection is reset, and the slot gets another one before the second `lookup`
  obtain ⟨mem', vacant, run⟩ := pending'.frees judged
  obtain ⟨mem'', pending'', run⟩ := vacant.opens run
  have newer : (nextGeneration 1 == (1 : BitVec 32)) = false := by decide
  refine ⟨_, run.finish, dereferences mem'' ?_⟩
  rw [found, pending''.generation, newer, Bool.and_false, Bool.false_and]

/-- The small stack when its first connection has been closed, reset by the peer and
released: the slot is free. -/
def singleSlotFreed : Memory :=
  ((endPoll singleSlot .quiet).run
    ((process singleSlot rstPacket).run singleSlotReleased.state).2).2

theorem singleSlotFreed_reachable :
    (between singleSlotFreed (some (.endPoll .quiet)) singleSlotReleased.second).Reachable :=
  (singleSlotReleased_reachable.task (.packet rstPacket) rfl trivial).task (.endPoll .quiet) rfl
    trivial

theorem singleSlotFreed_vacant : Vacant 1 singleSlotFreed where
  orderly := System.Reachable.orderly singleSlotFreed_reachable
  free := by decide +kernel
  generation := by decide +kernel

theorem singleSlotFreed_accepted : Accepted singleSlotFreed ⟨0, 1⟩ :=
  ⟨⟨.accepted, ⟨0, 1⟩, [], 0x0a000002, 4000, 80⟩, by decide +kernel, rfl, rfl⟩

/-- The second `lookup` of `send_space` can yield null after `sendable` has returned true,
although the id comes from an `accepted` event. -/
theorem second_lookup_yields_null : ∃ system : System singleSlot anyTask, system.Reachable ∧
    .nullDereference ⟨0, 1⟩ ∈ system.state.tx.log :=
  singleSlotFreed_vacant.dereferences singleSlotFreed_accepted singleSlotFreed_reachable

end DpdkWrapper.Tcp
