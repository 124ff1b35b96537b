import DpdkWrapper.Threads.Throughout
import DpdkWrapper.Tcp.PollLists

/-!
# Fixed-capacity buffers

The arrays and vectors of the receiver have fixed sizes and `push_back` into them is not
checked.  While packets are processed the lists of a poll only grow, by at most three
events, one control segment or owed ACK, and one entry to finalize per packet.

The bounds hold at every moment, not only between tasks.  For the processing of packets this
follows from the bounds at its end, since until then the lists grow; the start and the end of a
poll are walked through step by step.  The last part connects the list of control packets with
the array and the counter that the source keeps it in.
-/

namespace DpdkWrapper.Tcp

open Arp Threads Wire

/-! ## Lists that grow -/

/-- One list is the other without some front entries: slots are only taken, or only
given back. -/
def Ordered (taking : Bool) (before after : List Nat) : Prop :=
  if taking then after <:+ before else before <:+ after

theorem Ordered.refl (taking : Bool) (list : List Nat) : Ordered taking list list := by
  cases taking <;> exact List.suffix_rfl

theorem Ordered.trans {taking : Bool} {first second third : List Nat}
    (left : Ordered taking first second) (right : Ordered taking second third) :
    Ordered taking first third := by
  cases taking with
  | true => exact List.IsSuffix.trans right left
  | false => exact List.IsSuffix.trans left right

/-- The lists of a poll grow. -/
structure Grows (taking : Bool) (rx rx' : Receiver) : Prop where
  events : rx.events <+: rx'.events
  control : rx.control <+: rx'.control
  ackList : rx.ackList <+: rx'.ackList
  finalizeList : rx.finalizeList <+: rx'.finalizeList
  awaitingRelease : rx'.awaitingRelease = rx.awaitingRelease
  freeSlots : Ordered taking rx.freeSlots rx'.freeSlots

namespace Grows

variable {taking : Bool} {rx rx' rx'' : Receiver}

theorem refl (rx : Receiver) : Grows taking rx rx :=
  ⟨List.prefix_rfl, List.prefix_rfl, List.prefix_rfl, List.prefix_rfl, rfl, .refl _ _⟩

/-- Growth composes, so it is enough to look at single steps. -/
theorem trans (first : Grows taking rx rx') (second : Grows taking rx' rx'') :
    Grows taking rx rx'' where
  events := first.events.trans second.events
  control := first.control.trans second.control
  ackList := first.ackList.trans second.ackList
  finalizeList := first.finalizeList.trans second.finalizeList
  awaitingRelease := second.awaitingRelease.trans first.awaitingRelease
  freeSlots := first.freeSlots.trans second.freeSlots

theorem updateSlot (rx : Receiver) (idx : Nat) (change : TcpConnection → TcpConnection) :
    Grows taking rx (rx.updateSlot idx change) :=
  { refl rx with }

theorem count (rx : Receiver) (counter : Counter) : Grows taking rx (rx.count counter) :=
  { refl rx with }

theorem note (rx : Receiver) (entry : RxEntry) : Grows taking rx (rx.note entry) :=
  { refl rx with }

theorem pushEvent (rx : Receiver) (type : TcpEventType) (idx : Nat) (data : List Byte) :
    Grows taking rx (rx.pushEvent type idx data) :=
  { refl rx with events := List.prefix_append _ _ }

theorem queueControl (rx : Receiver) (packet : Option Packet) :
    Grows taking rx (rx.queueControl packet) := by
  unfold Receiver.queueControl
  split
  · exact .count rx _
  · split
    · exact .count rx _
    · exact { refl rx with control := List.prefix_append _ _ }

theorem queueAck (rx : Receiver) (idx : Nat) : Grows taking rx (rx.queueAck idx) := by
  unfold Receiver.queueAck
  split
  · exact .refl rx
  · exact { refl rx with ackList := List.prefix_append _ _ }

theorem scheduleFinalize (rx : Receiver) (idx : Nat) :
    Grows taking rx (rx.scheduleFinalize idx) := by
  unfold Receiver.scheduleFinalize
  split
  · exact .refl rx
  · exact { refl rx with finalizeList := List.prefix_append _ _ }

theorem releaseSlot (rx : Receiver) (idx : Nat) : Grows false rx (rx.releaseSlot idx) :=
  ⟨List.prefix_rfl, List.prefix_rfl, List.prefix_rfl, List.prefix_rfl, rfl,
    List.suffix_cons _ _⟩

theorem eraseFlow (rx : Receiver) (idx : Nat) : Grows taking rx (rx.eraseFlow idx) := by
  unfold Receiver.eraseFlow
  split
  · exact .note rx .fault
  · exact { refl rx with }

theorem insertFlow (rx : Receiver) (idx : Nat) : Grows taking rx (rx.insertFlow idx) := by
  unfold Receiver.insertFlow
  split
  · exact .note rx .fault
  · exact { refl rx with }

theorem sendRstFor (k : TcpStack) (rx : Receiver) (seg : Segment) (pool : Bool) :
    Grows taking rx (sendRstFor k rx seg pool) := by
  unfold Tcp.sendRstFor
  split
  · exact .refl rx
  · exact (count rx .rstSent).trans (.queueControl _ _)

theorem deliver (idx : Nat) (seg : Segment) (rx : Receiver) :
    Grows taking rx (deliver idx seg rx) := by
  unfold Tcp.deliver
  dsimp only
  split
  · exact (pushEvent rx .data idx _).trans (.updateSlot _ _ _)
  · exact .refl rx

theorem takeFin (idx : Nat) (rx : Receiver) : Grows taking rx (takeFin idx rx) :=
  (updateSlot rx idx _).trans (.note _ _)

end Grows

/-- The same of the whole memory. -/
def Growing (taking : Bool) (mem mem' : Memory) : Prop :=
  Grows taking mem.rx mem'.rx

section Programs

variable {taking : Bool} (k : TcpStack) (idx : Nat) (seg : Segment) (pool : Bool)

theorem viewRx_growing {α : Type} (value : Receiver → α) :
    (viewRx value).Always (Growing taking) :=
  Program.Always.read (fun _ => .refl _) _

theorem inbound_growing {change : Receiver → Receiver}
    (grows : ∀ rx, Grows taking rx (change rx)) : (inbound change).Always (Growing taking) :=
  Program.Always.modify fun mem => grows mem.rx

theorem outbound_growing (change : Sender → Sender) :
    (outbound change).Always (Growing taking) :=
  Program.Always.modify fun mem => Grows.refl mem.rx

theorem loadOutFlags_growing : (loadOutFlags idx).Always (Growing taking) :=
  Program.Always.read (fun _ => .refl _) _

theorem when_growing {condition : Bool} {program : Code Unit}
    (always : program.Always (Growing taking)) :
    (Program.when condition program).Always (Growing taking) :=
  Program.Always.ite always trivial

theorem terminate_growing (why : TcpEventType) :
    (terminate idx why).Always (Growing taking) :=
  (inbound_growing fun rx => .updateSlot rx idx _).bind fun _ =>
    inbound_growing fun rx => (Grows.pushEvent rx why idx []).trans (.scheduleFinalize _ idx)

theorem publishWindow_growing : (publishWindow idx).Always (Growing taking) :=
  inbound_growing fun rx => .updateSlot rx idx _

theorem syncOutFlags_growing : (syncOutFlags idx).Always (Growing taking) :=
  (loadOutFlags_growing idx).bind fun _ =>
    when_growing (inbound_growing fun rx => .updateSlot rx idx _)

theorem checkAck_growing : (checkAck idx seg).Always (Growing taking) := by
  intro mem
  refine ⟨?_, trivial⟩
  dsimp only
  split
  · exact (Grows.queueAck mem.rx idx).trans (.note _ _)
  · exact Grows.updateSlot mem.rx idx _

theorem finishAck_growing (out : BitVec 8) (sndNxt : BitVec 32) :
    (finishAck idx seg out sndNxt).Always (Growing taking) := by
  refine .ite ((viewRx_growing _).bind fun state => ?_) trivial
  have moves : (inbound fun rx => rx.updateSlot idx fun c =>
      { c with state := .finWait2 }).Always (Growing taking) :=
    inbound_growing fun rx => .updateSlot rx idx _
  cases state with
  | finWait1 => exact moves.bind fun _ => trivial
  | closing | lastAck => exact (terminate_growing idx .closed).bind fun _ => trivial
  | _ => trivial

/-- An ACK takes nothing from the lists of the poll. -/
theorem processAck_growing : (processAck idx seg).Always (Growing taking) := by
  refine (loadOutFlags_growing idx).bind fun out => (checkAck_growing idx seg).bind fun check => ?_
  cases check with
  | refused => trivial
  | recorded sndNxt changed =>
      exact (when_growing (publishWindow_growing idx)).bind fun _ =>
        finishAck_growing idx seg out sndNxt

theorem consumeFin_growing : (consumeFin idx).Always (Growing taking) := by
  refine (viewRx_growing _).bind fun state => ?_
  cases state with
  | established =>
      exact inbound_growing fun rx => ((Grows.takeFin idx rx).trans (.updateSlot _ idx _)).trans
        (.pushEvent _ .peerClosed idx [])
  | finWait1 => exact inbound_growing fun rx => (Grows.takeFin idx rx).trans (.updateSlot _ idx _)
  | finWait2 => exact (inbound_growing (Grows.takeFin idx)).bind fun _ => terminate_growing idx _
  | _ => exact inbound_growing (Grows.takeFin idx)

/-- Nor does data. -/
theorem processData_growing : (processData idx seg).Always (Growing taking) := by
  refine (viewRx_growing _).bind fun c => .ite ?_ (.ite trivial
    (.ite ?_ ?_))
  · exact when_growing (inbound_growing fun rx => .queueAck rx idx)
  · exact inbound_growing fun rx => (Grows.count rx .outOfOrder).trans (.queueAck _ idx)
  · refine (inbound_growing fun rx => (Grows.deliver idx seg rx).trans (.queueAck _ idx)).bind
      fun _ => (viewRx_growing _).bind fun _ => ?_
    exact (when_growing (consumeFin_growing idx)).bind fun _ =>
      inbound_growing fun rx => .updateSlot rx idx _

theorem processHandshake_growing :
    (processHandshake k idx seg pool).Always (Growing false) := by
  refine (viewRx_growing _).bind fun c => .ite ?_ (.ite ?_
    (.ite trivial (.ite ?_ ?_)))
  · exact when_growing (inbound_growing fun rx =>
      ((Grows.count rx .rstReceived).trans (.eraseFlow _ idx)).trans (.releaseSlot _ idx))
  · exact when_growing (inbound_growing fun rx => .queueControl rx _)
  · exact inbound_growing fun rx => .sendRstFor k rx seg pool
  · refine (inbound_growing fun rx => .updateSlot rx idx _).bind fun _ => ?_
    refine (inbound_growing fun rx => (Grows.updateSlot rx idx _).trans
      (.pushEvent _ .accepted idx [])).bind fun _ => ?_
    exact processData_growing idx seg

theorem processSynchronized_growing :
    (processSynchronized k idx seg).Always (Growing taking) := by
  refine (viewRx_growing _).bind fun c => .ite ?_ (.ite ?_
    (.ite trivial ?_))
  · exact when_growing ((inbound_growing fun rx => .count rx .rstReceived).bind fun _ =>
      terminate_growing idx .reset)
  · exact inbound_growing fun rx => .queueAck rx idx
  · exact (processAck_growing idx seg).bind fun _ => when_growing (processData_growing idx seg)

theorem processSegment_growing :
    (processSegment k idx seg pool).Always (Growing false) := by
  refine (syncOutFlags_growing idx).bind fun _ => (viewRx_growing _).bind fun state => ?_
  cases state with
  | free | closed => trivial
  | synReceived => exact processHandshake_growing k idx seg pool
  | _ => exact processSynchronized_growing k idx seg

/-- A SYN takes a slot from the free list. -/
theorem openSlot_growing (peerMss : BitVec 16) (rand : BitVec 64) :
    (openSlot k idx seg peerMss rand pool).Always (Growing true) := by
  refine (viewRx_growing _).bind fun generation => ?_
  refine (inbound_growing fun rx => ?_).bind fun _ => ?_
  · exact ⟨List.prefix_rfl, List.prefix_rfl, List.prefix_rfl, List.prefix_rfl, rfl,
      List.tail_suffix _⟩
  · refine (inbound_growing fun rx => .updateSlot rx idx _).bind fun _ => ?_
    refine (publishWindow_growing idx).bind fun _ => ?_
    refine (inbound_growing fun rx => .updateSlot rx idx _).bind fun _ => ?_
    refine (outbound_growing _).bind fun _ => (outbound_growing _).bind fun _ => ?_
    exact inbound_growing fun rx => (Grows.insertFlow rx idx).trans (.queueControl _ _)

end Programs

/-! ## What a packet adds -/

/-- What at most `count` packets have put on the lists of a poll. -/
structure Load (count : Nat) (rx : Receiver) : Prop where
  events : rx.events.length ≤ 3 * count
  replies : rx.control.length + rx.ackList.length ≤ count
  finalizeList : rx.finalizeList.length ≤ count

theorem length_queued_le (control : List Packet) (packet : Option Packet) :
    (queued control packet).length ≤ control.length + packet.toList.length := by
  unfold queued
  split
  · exact Nat.le_refl _
  · split
    · exact Nat.le_add_right _ _
    · simp

theorem Pushes.length_le {payload : List Byte} {count : Nat} {rx rx' : Receiver}
    (pushes : Pushes payload count rx rx') : rx'.events.length ≤ rx.events.length + count := by
  obtain ⟨added, _, sameEvents, few, _⟩ := pushes
  rw [sameEvents, List.length_append]
  exact Nat.add_le_add_left few _

/-- A segment is owed an ACK or answered at once, but not both. -/
theorem Serves.load {idx count : Nat} {payload : List Byte} {owes cancels : Bool}
    {reply : Option TxSegment} {rx rx' : Receiver}
    (serves : Serves idx payload owes cancels reply rx rx')
    (apart : owes = true → reply = none) (load : Load count rx) : Load (count + 1) rx' := by
  have replies := load.replies
  constructor
  case events =>
    have pushed := serves.told.length_le
    have before := load.events
    omega
  case replies =>
    rw [serves.ackList, serves.control]
    have answered := length_queued_le rx.control (reply.map .tcp)
    cases owes with
    | true =>
        rw [apart rfl] at answered ⊢
        simp only [Option.map_none, Option.toList_none, List.length_nil] at answered ⊢
        split
        · rw [List.length_append, List.length_singleton]
          omega
        · omega
    | false =>
        have single : (reply.map Packet.tcp).toList.length ≤ 1 := by cases reply <;> simp
        simp only [Bool.false_and, Bool.false_eq_true, if_false]
        omega
  case finalizeList =>
    obtain ⟨ended, grown, few⟩ := serves.finalizeList
    have before := load.finalizeList
    rw [grown, List.length_append]
    omega

/-- A packet that no connection takes part in queues at most one answer. -/
theorem Answers.load {reply : Option Packet} {mem mem' : Memory} {count : Nat}
    (answers : Answers reply mem mem') (load : Load count mem.rx) :
    Load (count + 1) mem'.rx := by
  have answered := length_queued_le mem.rx.control reply
  have single : reply.toList.length ≤ 1 := by cases reply <;> simp
  have replies := load.replies
  constructor
  · rw [answers.events]
    exact Nat.le_trans load.events (by omega)
  · rw [answers.control, answers.ackList]
    omega
  · rw [answers.finalizeList]
    exact Nat.le_succ_of_le load.finalizeList

/-- The step lemma: each packet adds at most its share to the lists of the poll. -/
theorem Dispatch.load {k : TcpStack} {packet : RxPacket} {mem mem' : Memory} {count : Nat}
    (dispatch : Dispatch k packet mem mem') (load : Load count mem.rx) :
    Load (count + 1) mem'.rx := by
  cases dispatch with
  | other _ answers | refused _ _ _ answers => exact answers.load load
  | opened => exact (openSlot_serves k _ _ _ _ _ mem).load (by simp) load
  | segment =>
      exact (processSegment_serves k _ _ _ mem).load
        (fun owed => Session.reply_eq_none k _ _ owed) load

/-! ## Room for slots -/

theorem length_le_of_nodup {entries : List Nat} {count : Nat} (nodup : entries.Nodup)
    (inside : ∀ i ∈ entries, i < count) : entries.length ≤ count := by
  have subset : entries ⊆ List.range count := fun i member => List.mem_range.mpr (inside i member)
  have shorter := (List.subperm_of_subset nodup subset).length_le
  rwa [List.length_range] at shorter

/-- The slots on the three lists are different ones. -/
theorem Accounting.room {k : TcpStack} {rx : Receiver} (accounts : Accounting k rx) :
    rx.freeSlots.length + rx.awaitingRelease.length + rx.finalizeList.length ≤
      k.maxConnections := by
  have apart : ∀ {one two : SlotPlace} {first second : List Nat},
      Lists k.maxConnections rx.summary one first → Lists k.maxConnections rx.summary two second →
      one ≠ two → ∀ i ∈ first, ∀ j ∈ second, i ≠ j := by
    rintro one two first second here there different i member j memberToo rfl
    exact different (((here.mem_iff i).mp member).2.symm.trans ((there.mem_iff i).mp memberToo).2)
  have nodup : (rx.freeSlots ++ (rx.awaitingRelease ++ rx.finalizeList)).Nodup := by
    rw [List.nodup_append, List.nodup_append]
    refine ⟨accounts.free.nodup, ⟨accounts.awaiting.nodup, accounts.finalizing.nodup,
      apart accounts.awaiting accounts.finalizing (by decide)⟩, ?_⟩
    intro i member j memberToo
    rcases List.mem_append.mp memberToo with awaiting | finalizing
    · exact apart accounts.free accounts.awaiting (by decide) i member j awaiting
    · exact apart accounts.free accounts.finalizing (by decide) i member j finalizing
  have bound := length_le_of_nodup nodup fun i member => by
    rcases List.mem_append.mp member with free | member
    · exact ((accounts.free.mem_iff i).mp free).1
    · rcases List.mem_append.mp member with awaiting | finalizing
      · exact ((accounts.awaiting.mem_iff i).mp awaiting).1
      · exact ((accounts.finalizing.mem_iff i).mp finalizing).1
  rw [List.length_append, List.length_append] at bound
  omega

/-! ## Every moment of a poll -/

/-- All buffers have the room they need in a poll of `size` packets. -/
structure Fits (k : TcpStack) (size : Nat) (rx : Receiver) : Prop where
  events : rx.events.length ≤ 3 * maxBurst
  control : rx.control.length ≤ size
  ackList : rx.ackList.length ≤ size
  finalizeList : rx.finalizeList.length ≤ size
  freeSlots : rx.freeSlots.length ≤ k.maxConnections
  awaitingRelease : rx.awaitingRelease.length ≤ k.maxConnections

/-- What `count` packets have put on the lists fits, if the burst is no longer than allowed. -/
theorem Load.fits {k : TcpStack} {rx : Receiver} {count size : Nat} (load : Load count rx)
    (accounts : Accounting k rx) (within : count ≤ size) (small : size ≤ maxBurst) :
    Fits k size rx := by
  have room := accounts.room
  have replies := load.replies
  have few := load.events
  have ended := load.finalizeList
  constructor <;> omega

/-- What lies between two moments that fit fits. -/
theorem Fits.between {k : TcpStack} {size : Nat} {taking : Bool} {rx middle rx' : Receiver}
    (before : Fits k size rx) (after : Fits k size rx') (first : Grows taking rx middle)
    (second : Grows taking middle rx') : Fits k size middle where
  events := Nat.le_trans second.events.length_le after.events
  control := Nat.le_trans second.control.length_le after.control
  ackList := Nat.le_trans second.ackList.length_le after.ackList
  finalizeList := Nat.le_trans second.finalizeList.length_le after.finalizeList
  freeSlots := by
    cases taking with
    | true => exact Nat.le_trans (List.IsSuffix.length_le first.freeSlots) before.freeSlots
    | false => exact Nat.le_trans (List.IsSuffix.length_le second.freeSlots) after.freeSlots
  awaitingRelease := by
    rw [first.awaitingRelease]
    exact before.awaitingRelease

section Steps

variable {α β : Type} {holds : Memory → Prop} {mem : Memory}

theorem throughout_viewRx_bind {value : Receiver → α} {rest : α → Code β} (now : holds mem)
    (later : (rest (value mem.rx)).Throughout holds mem) :
    (viewRx value >>= rest).Throughout holds mem :=
  ⟨now, later⟩

theorem throughout_loadOutFlags_bind {idx : Nat} {rest : BitVec 8 → Code β} (now : holds mem)
    (later : (rest (mem.tx.slots idx).outFlags).Throughout holds mem) :
    (loadOutFlags idx >>= rest).Throughout holds mem :=
  ⟨now, later⟩

theorem throughout_loadSndNxt_bind {idx : Nat} {rest : BitVec 32 → Code β} (now : holds mem)
    (later : (rest (mem.tx.slots idx).sndNxt).Throughout holds mem) :
    (loadSndNxt idx >>= rest).Throughout holds mem :=
  ⟨now, later⟩

theorem throughout_inbound_bind {change : Receiver → Receiver} {rest : Unit → Code β}
    (now : holds mem)
    (later : (rest ()).Throughout holds ⟨change mem.rx, mem.tx⟩) :
    (inbound change >>= rest).Throughout holds mem :=
  ⟨now, later⟩

theorem throughout_inbound {change : Receiver → Receiver} (now : holds mem)
    (later : holds ⟨change mem.rx, mem.tx⟩) : (inbound change).Throughout holds mem :=
  ⟨now, later⟩

end Steps

section Packets

variable {k : TcpStack} {size : Nat} {mem : Memory}

/-- A program that only lets the lists grow stays within the bounds throughout if it ends within
them. -/
theorem Fits.throughout {α : Type} {taking : Bool} {program : Code α}
    (always : program.Always (Growing taking)) (before : Fits k size mem.rx)
    (after : Fits k size (program.run mem).2.rx) :
    program.Throughout (fun mem => Fits k size mem.rx) mem :=
  (always.throughout (fun _ => .refl _) (fun _ _ _ => Grows.trans) mem).mono
    fun _ between => before.between after between.1 between.2

/-- Every moment of the processing of a segment, with or without a connection. -/
theorem processTcp_fits {seg : Segment} {rand : BitVec 64} {pool : Bool}
    (before : Fits k size mem.rx)
    (after : Fits k size ((processTcp k seg rand pool).run mem).2.rx) :
    (processTcp k seg rand pool).Throughout (fun mem => Fits k size mem.rx) mem := by
  rw [processTcp] at after ⊢
  rw [run_viewRx_bind] at after
  refine throughout_viewRx_bind before ?_
  cases found : mem.rx.flows.find (FlowTable.key seg.srcIp seg.srcPort seg.dstPort) with
  | none =>
      rw [found] at after
      exact throughout_inbound before after
  | some idx =>
      rw [found] at after
      dsimp only at after ⊢
      split at after
      · rename_i known
        rw [if_pos known]
        exact before.throughout (processSegment_growing k idx seg pool) after
      · rename_i unknown
        rw [if_neg unknown]
        split at after
        · rename_i requested
          rw [if_pos requested]
          rw [openConnection] at after ⊢
          rw [run_viewRx_bind] at after
          refine throughout_viewRx_bind before ?_
          cases free : mem.rx.freeSlots with
          | nil =>
              rw [free] at after
              exact throughout_inbound before after
          | cons idx rest =>
              rw [free] at after
              dsimp only at after ⊢
              cases parsed : parseMssOption seg.options with
              | none =>
                  rw [parsed] at after
                  exact throughout_inbound before after
              | some peerMss =>
                  rw [parsed] at after
                  exact before.throughout (openSlot_growing k idx seg pool peerMss rand) after
        · rename_i unrequested
          rw [if_neg unrequested]
          exact throughout_inbound before after

/-- Every moment of the processing of a packet. -/
theorem process_fits (packet : RxPacket) (before : Fits k size mem.rx)
    (after : Fits k size ((process k packet).run mem).2.rx) :
    (process k packet).Throughout (fun mem => Fits k size mem.rx) mem := by
  rw [process] at after ⊢
  cases decoded : decode k packet.frame packet.contiguous with
  | none =>
      rw [decoded] at after
      exact throughout_inbound before after
  | some verdict =>
      rw [decoded] at after
      cases verdict with
      | ignored => exact before
      | dropped counter => exact throughout_inbound before after
      | arp => exact throughout_inbound before after
      | segment seg => exact processTcp_fits before after

end Packets

/-! ## The start and the end of a poll -/

section Ends

variable {k : TcpStack} {size owed ending : Nat} {mem : Memory}

/-- The moments of `reap_released`: the lists of the poll are empty. -/
def Reaping (k : TcpStack) (mem : Memory) : Prop :=
  Load 0 mem.rx ∧
    mem.rx.freeSlots.length + mem.rx.awaitingRelease.length ≤ k.maxConnections

/-- Every moment of the reaping: what leaves one list goes to the other. -/
theorem reapLoop_reaping (fuel i : Nat) (reaping : Reaping k mem) :
    (reapLoop fuel i).Throughout (Reaping k) mem := by
  induction fuel generalizing i mem with
  | zero => exact ⟨reaping, ⟨⟨reaping.1.1, reaping.1.2, reaping.1.3⟩, reaping.2⟩⟩
  | succ fuel ih =>
      rw [reapLoop]
      refine throughout_viewRx_bind reaping ?_
      cases found : mem.rx.awaitingRelease[i]? with
      | none => exact reaping
      | some idx =>
          refine throughout_loadOutFlags_bind reaping ?_
          split
          · refine throughout_inbound_bind reaping
              (ih i ⟨⟨reaping.1.1, reaping.1.2, reaping.1.3⟩, ?_⟩)
            have inside := (List.getElem?_eq_some_iff.mp found).1
            have room := reaping.2
            dsimp only
            rw [length_swapRemove, Receiver.releaseSlot_freeSlots, List.length_cons]
            omega
          · exact ih (i + 1) reaping

theorem Reaping.fits (reaping : Reaping k mem) : Fits k size mem.rx := by
  obtain ⟨⟨events, replies, finalizeList⟩, room⟩ := reaping
  constructor <;> omega

/-- The moments of the end of a poll: `owed` ACKs are still to be queued and `ending`
connections to be finalized. -/
structure Closing (k : TcpStack) (size owed ending : Nat) (rx : Receiver) : Prop where
  small : size ≤ maxBurst
  events : rx.events.length ≤ 3 * size
  control : rx.control.length + owed ≤ size
  ackList : rx.ackList.length ≤ size
  finalizeList : rx.finalizeList.length ≤ size
  slots : rx.freeSlots.length + rx.awaitingRelease.length + ending ≤ k.maxConnections

theorem Closing.fits {rx : Receiver} (closing : Closing k size owed ending rx) :
    Fits k size rx := by
  obtain ⟨small, events, control, ackList, finalizeList, slots⟩ := closing
  constructor <;> omega

/-- One ACK of the flush takes the place that was kept for it. -/
theorem flushAck_closing {ackPool : Nat → Bool} {entry : Nat × Nat}
    (closing : Closing k size (owed + 1) ending mem.rx) :
    (flushAck k ackPool entry).Throughout (fun mem => Fits k size mem.rx) mem ∧
      Closing k size owed ending ((flushAck k ackPool entry).run mem).2.rx := by
  have fits := closing.fits
  rw [flushAck, run_viewRx_bind, Program.run_when]
  split
  · rename_i pending
    rw [run_loadSndNxt_bind, run_inbound]
    have queued : ∀ packet, Closing k size owed ending
        ((mem.rx.updateSlot entry.1 fun c => { c with ackPending := false }).queueControl
          packet) := by
      intro packet
      have longer := length_queued_le mem.rx.control packet
      have single : packet.toList.length ≤ 1 := by cases packet <;> simp
      have control := closing.control
      obtain ⟨_, free, awaiting, unlisted⟩ := Receiver.queueControl_frame
        (mem.rx.updateSlot entry.1 fun c => { c with ackPending := false }) packet
      refine ⟨closing.small, ?_, ?_, ?_, ?_, ?_⟩
      · rw [queueControl_events]
        exact closing.events
      · rw [queueControl_control]
        have same : (mem.rx.updateSlot entry.1 fun c =>
            { c with ackPending := false }).control = mem.rx.control := rfl
        rw [same]
        omega
      · rw [queueControl_ackList]
        exact closing.ackList
      · rw [unlisted]
        exact closing.finalizeList
      · rw [free, awaiting]
        exact closing.slots
    refine ⟨throughout_viewRx_bind fits ?_, queued _⟩
    rw [Program.when, if_pos pending]
    exact throughout_loadSndNxt_bind fits (throughout_inbound fits (queued _).fits)
  · rename_i idle
    refine ⟨throughout_viewRx_bind fits ?_, ?_⟩
    · rw [Program.when, if_neg idle]
      exact fits
    · exact { closing with
        control := Nat.le_trans (Nat.add_le_add_left (Nat.le_succ owed) _) closing.control }

/-- All the ACKs that are due, by induction over the list. -/
theorem flushAcks_closing (ackPool : Nat → Bool)
    (closing : Closing k size mem.rx.ackList.length ending mem.rx) :
    (flushAcks k ackPool).Throughout (fun mem => Fits k size mem.rx) mem ∧
      Closing k size 0 ending ((flushAcks k ackPool).run mem).2.rx := by
  have start : Closing k size mem.rx.ackList.zipIdx.length ending mem.rx := by
    rw [List.length_zipIdx]
    exact closing
  obtain ⟨within, flushed⟩ := Program.Throughout.forEach
    (fun rest (mem : Memory) => Closing k size rest.length ending mem.rx)
      (fun _ => Closing.fits)
    (fun _ _ _ => flushAck_closing) start
  have cleared : Closing k size 0 ending { ((Program.forEach (flushAck k ackPool)
      mem.rx.ackList.zipIdx).run mem).2.rx with ackList := [] } :=
    { flushed with ackList := Nat.zero_le _ }
  rw [flushAcks, run_viewRx_bind, Program.run_bind', run_inbound]
  exact ⟨throughout_viewRx_bind closing.fits
    (within.bind (throughout_inbound flushed.fits cleared.fits)), cleared⟩

theorem Closing.eraseFlow {rx : Receiver} (closing : Closing k size owed ending rx) (idx : Nat) :
    Closing k size owed ending (rx.eraseFlow idx) := by
  unfold Receiver.eraseFlow
  split
  · exact { closing with }
  · exact { closing with }

theorem Closing.releaseSlot {rx : Receiver} (closing : Closing k size owed (ending + 1) rx)
    (idx : Nat) : Closing k size owed ending (rx.releaseSlot idx) := by
  have slots := closing.slots
  refine { closing with slots := ?_ }
  rw [Receiver.releaseSlot_freeSlots, Receiver.releaseSlot_awaitingRelease, List.length_cons]
  omega

theorem Closing.await {rx : Receiver} (closing : Closing k size owed (ending + 1) rx)
    (idx : Nat) :
    Closing k size owed ending { rx with awaitingRelease := rx.awaitingRelease ++ [idx] } := by
  have slots := closing.slots
  refine { closing with slots := ?_ }
  change rx.freeSlots.length + (rx.awaitingRelease ++ [idx]).length + ending ≤ _
  rw [List.length_append, List.length_singleton]
  omega

/-- Finalizing one connection. -/
theorem finalizeSlot_closing {idx : Nat}
    (closing : Closing k size owed (ending + 1) mem.rx) :
    (finalizeSlot idx).Throughout (fun mem => Fits k size mem.rx) mem ∧
      Closing k size owed ending ((finalizeSlot idx).run mem).2.rx := by
  have cleared : Closing k size owed (ending + 1)
      (mem.rx.updateSlot idx fun c => { c with finalizePending := false }) :=
    { closing with }
  have erased := cleared.eraseFlow idx
  have freed := erased.releaseSlot idx
  have waits := erased.await idx
  rw [finalizeSlot, run_inbound_bind, run_loadOutFlags_bind]
  by_cases released : hasReleased (mem.tx.slots idx).outFlags = true
  · rw [if_pos released]
    refine ⟨throughout_inbound_bind closing.fits (throughout_loadOutFlags_bind erased.fits ?_),
      freed⟩
    rw [if_pos released]
    exact throughout_inbound erased.fits freed.fits
  · rw [if_neg released]
    refine ⟨throughout_inbound_bind closing.fits (throughout_loadOutFlags_bind erased.fits ?_),
      waits⟩
    rw [if_neg released]
    exact throughout_inbound erased.fits waits.fits

/-- Finalizing all connections of the list. -/
theorem finalize_closing (closing : Closing k size owed mem.rx.finalizeList.length mem.rx) :
    finalize.Throughout (fun mem => Fits k size mem.rx) mem ∧
      Closing k size owed 0 (finalize.run mem).2.rx := by
  obtain ⟨within, ended⟩ := Program.Throughout.forEach
    (fun rest (mem : Memory) => Closing k size owed rest.length mem.rx)
      (fun _ => Closing.fits)
    (fun _ _ _ => finalizeSlot_closing) closing
  have cleared : Closing k size owed 0 { ((Program.forEach finalizeSlot
      mem.rx.finalizeList).run mem).2.rx with finalizeList := [] } :=
    { ended with finalizeList := Nat.zero_le _ }
  rw [finalize, run_viewRx_bind, Program.run_bind', run_inbound]
  exact ⟨throughout_viewRx_bind closing.fits
    (within.bind (throughout_inbound ended.fits cleared.fits)), cleared⟩

/-- Neither the ACKs nor the control packets change. -/
def SameReplies (mem mem' : Memory) : Prop :=
  mem'.rx.ackList = mem.rx.ackList ∧ mem'.rx.control = mem.rx.control

theorem finalizeSlot_sameReplies (idx : Nat) : (finalizeSlot idx).Always SameReplies := by
  refine .bind (.modify fun mem => ?_) fun _ => ?_
  · obtain ⟨⟨_, ackList, control, _⟩, _⟩ := eraseFlow_lists idx
      (mem.rx.updateSlot idx fun c => { c with finalizePending := false })
    exact ⟨ackList, control⟩
  · refine .bind (.read (fun _ => ⟨rfl, rfl⟩) _) fun _ => ?_
    exact .ite (.modify fun _ => ⟨rfl, rfl⟩)
      (.modify fun _ => ⟨rfl, rfl⟩)

theorem finalize_sameReplies (mem : Memory) : SameReplies mem (finalize.run mem).2 := by
  have always : finalize.Always SameReplies := by
    refine .bind (.read (fun _ => ⟨rfl, rfl⟩) _) fun entries => ?_
    exact (Program.Always.forEach finalizeSlot_sameReplies entries).bind fun _ =>
      Program.Always.modify fun _ => ⟨rfl, rfl⟩
  exact always.run (fun _ => ⟨rfl, rfl⟩)
    (fun _ _ _ first second => ⟨second.1.trans first.1, second.2.trans first.2⟩) mem

/-- At the end of a poll nothing is left to be acknowledged or flushed. -/
theorem endPoll_replies (k : TcpStack) (mem : Memory) (env : FlushEnv) :
    ((endPoll k env).run mem).2.rx.ackList = [] ∧
      ((endPoll k env).run mem).2.rx.control = [] := by
  rw [endPoll, Program.run_bind', run_inbound_bind]
  obtain ⟨ackList, control⟩ := finalize_sameReplies
    ⟨flushControl env.controlTake ((flushAcks k env.ackPool).run mem).2.rx,
      ((flushAcks k env.ackPool).run mem).2.tx⟩
  have flushed : ((flushAcks k env.ackPool).run mem).2.rx.ackList = [] := by
    rw [flushAcks, run_viewRx_bind, Program.run_bind', run_inbound]
  exact ⟨ackList.trans flushed, control⟩

/-- No connection is ended. -/
def SameEnds (mem mem' : Memory) : Prop :=
  mem'.rx.finalizeList = mem.rx.finalizeList

theorem SameEnds.refl (mem : Memory) : SameEnds mem mem := rfl

theorem flushAck_sameEnds (ackPool : Nat → Bool) (entry : Nat × Nat) :
    (flushAck k ackPool entry).Always SameEnds := by
  refine .bind (.read .refl _) fun c => ?_
  refine .ite (.bind (.read .refl _) fun _ => ?_) trivial
  exact .modify fun mem => by simp [SameEnds]

theorem flushAcks_sameEnds (ackPool : Nat → Bool) :
    SameEnds mem ((flushAcks k ackPool).run mem).2 := by
  have always : (flushAcks k ackPool).Always SameEnds := by
    refine .bind (.read .refl _) fun entries => ?_
    exact (Program.Always.forEach (flushAck_sameEnds ackPool) _).bind fun _ =>
      Program.Always.modify fun _ => rfl
  exact always.run .refl (fun _ _ _ first second => Eq.trans second first) mem

/-- Every moment of the end of a poll, and what is left behind at its end. -/
theorem endPoll_fits (accounts : Accounting k mem.rx) (load : Load size mem.rx)
    (small : size ≤ maxBurst) (env : FlushEnv) :
    (endPoll k env).Throughout (fun mem => Fits k size mem.rx) mem ∧
      ((endPoll k env).run mem).2.rx.events.length ≤ 3 * size ∧
      ((flushAcks k env.ackPool).run mem).2.rx.control.length ≤ size := by
  have room := accounts.room
  have replies := load.replies
  have closing : Closing k size mem.rx.ackList.length mem.rx.finalizeList.length mem.rx :=
    ⟨small, load.events, load.replies, by omega, load.finalizeList, room⟩
  obtain ⟨acking, acked⟩ := flushAcks_closing env.ackPool closing
  have sameEnds : _ = mem.rx.finalizeList := flushAcks_sameEnds (k := k) env.ackPool
  rw [← sameEnds] at acked
  set flushed : Memory :=
    ⟨flushControl env.controlTake ((flushAcks k env.ackPool).run mem).2.rx,
      ((flushAcks k env.ackPool).run mem).2.tx⟩
  have sent : Closing k size 0 flushed.rx.finalizeList.length flushed.rx :=
    { acked with control := Nat.zero_le _ }
  obtain ⟨ending, ended⟩ := finalize_closing sent
  rw [endPoll, Program.run_bind', run_inbound_bind]
  exact ⟨acking.bind (throughout_inbound_bind acked.fits ending), ended.events, acked.control⟩

end Ends

/-! ## Runs -/

/-- What the lists of a poll hold between tasks. -/
def Loaded (state : State) : Prop :=
  match state.phase with
  | .idle => state.memory.rx.control = [] ∧ state.memory.rx.ackList = [] ∧
      state.memory.rx.events.length ≤ 3 * maxBurst
  | .polling count => count ≤ maxBurst ∧ Load count state.memory.rx

section Runs

variable {k : TcpStack} {mem : Memory}

/-- Between polls the lists are empty, so a poll starts with empty lists. -/
theorem beginPoll_reaping (inOrder : InOrder k ⟨.idle, mem⟩) (loaded : Loaded ⟨.idle, mem⟩) :
    reapReleased.Throughout (Reaping k) ⟨{ mem.rx with events := [] }, mem.tx⟩ := by
  obtain ⟨control, ackList, _⟩ := loaded
  have finalizeList : mem.rx.finalizeList = [] := inOrder.settled rfl
  have room : mem.rx.freeSlots.length + mem.rx.awaitingRelease.length ≤ k.maxConnections :=
    Nat.le_trans (Nat.le_add_right _ _) inOrder.accounts.room
  have reaping : Reaping k ⟨{ mem.rx with events := [] }, mem.tx⟩ := by
    refine ⟨⟨Nat.zero_le _, ?_, ?_⟩, room⟩
    · change mem.rx.control.length + mem.rx.ackList.length ≤ 0
      rw [control, ackList]
      exact Nat.le_refl 0
    · change mem.rx.finalizeList.length ≤ 0
      rw [finalizeList]
      exact Nat.le_refl 0
  exact throughout_viewRx_bind reaping (reapLoop_reaping _ _ reaping)

/-- Between polls the buffers have room for any burst. -/
theorem Fits.idle (size : Nat) (inOrder : InOrder k ⟨.idle, mem⟩)
    (loaded : Loaded ⟨.idle, mem⟩) : Fits k size mem.rx := by
  obtain ⟨control, ackList, few⟩ := loaded
  have finalizeList : mem.rx.finalizeList = [] := inOrder.settled rfl
  have room : mem.rx.freeSlots.length + mem.rx.awaitingRelease.length ≤ k.maxConnections :=
    Nat.le_trans (Nat.le_add_right _ _) inOrder.accounts.room
  constructor
  · exact few
  · rw [show mem.rx.control = [] from control]
    exact Nat.zero_le _
  · rw [show mem.rx.ackList = [] from ackList]
    exact Nat.zero_le _
  · rw [finalizeList]
    exact Nat.zero_le _
  · omega
  · omega

theorem beginPoll_load (inOrder : InOrder k ⟨.idle, mem⟩) (loaded : Loaded ⟨.idle, mem⟩) :
    Load 0 (beginPoll.run mem).2.rx :=
  (beginPoll_reaping inOrder loaded).finish.1

/-- The step lemma: tasks and calls keep what the lists hold. -/
theorem Loaded.act {state state' : State} {action : Action} (loaded : Loaded state)
    (inOrder : InOrder k state) (act : Act k state action state') : Loaded state' := by
  cases act with
  | @task phase phase' mem task enabled =>
      cases Phase.next_cases enabled with
      | beginPoll => exact ⟨Nat.zero_le _, beginPoll_load inOrder loaded⟩
      | packet received more =>
          exact ⟨more, (process_dispatch inOrder.accounts received).load loaded.2⟩
      | endPoll env =>
          obtain ⟨ackList, control⟩ := endPoll_replies k mem env
          have few := (endPoll_fits inOrder.accounts loaded.2 loaded.1 env).2.1
          refine ⟨control, ackList, Nat.le_trans few ?_⟩
          exact Nat.mul_le_mul_left 3 loaded.1
  | @call phase mem call =>
      have frame := call.run_frame k mem
      simp only [Loaded, frame.rx]
      exact loaded

/-- The lists hold no more than their share in any reachable state. -/
theorem Reachable.loaded {state : State} (reachable : Reachable k state) : Loaded state := by
  have both : InOrder k state ∧ Loaded state := by
    refine Run.invariant (fun state => InOrder k state ∧ Loaded state) reachable
      ⟨InOrder.initial k, rfl, rfl, Nat.zero_le _⟩ ?_
    rintro state action state' ⟨inOrder, loaded⟩ act _
    exact ⟨inOrder.act act, loaded.act inOrder act⟩
  exact both.2

/-- The packets of a burst, one after another. -/
theorem packets_fit {size : Nat} (small : size ≤ maxBurst) (packets : List RxPacket) :
    ∀ {count : Nat} {mem : Memory}, count + packets.length = size →
      Accounting k mem.rx → Ready mem → Load count mem.rx →
      (Program.forEach (process k) packets).Throughout (fun mem => Fits k size mem.rx)
          mem ∧
        Accounting k ((Program.forEach (process k) packets).run mem).2.rx ∧
        Load size ((Program.forEach (process k) packets).run mem).2.rx := by
  induction packets with
  | nil =>
      rintro count mem rfl accounts _ load
      exact ⟨load.fits accounts (Nat.le_refl _) small, accounts, load⟩
  | cons packet rest ih =>
      intro count mem whole accounts ready load
      rw [List.length_cons] at whole
      obtain ⟨accounts', ready'⟩ := (process_spec accounts packet fun _ _ _ _ => trivial).run rfl
        ready
      have load' := (process_dispatch accounts packet).load load
      have first := process_fits packet (load.fits accounts (by omega) small)
        (load'.fits accounts' (by omega) small)
      obtain ⟨others, accountsAfter, loadAfter⟩ := ih (by omega) accounts' ready' load'
      rw [Program.run_forEach_cons]
      exact ⟨first.bind others, accountsAfter, loadAfter⟩

end Runs

/-! ## The control array -/

/-- `control` and `n_control`; `none` is the empty packet. -/
structure ControlBuffer where
  entries : Nat → Option Packet
  count : Nat

namespace ControlBuffer

def empty : ControlBuffer :=
  ⟨fun _ => none, 0⟩

/-- `queue_control`. -/
def queue (buffer : ControlBuffer) : Option Packet → ControlBuffer
  | none => buffer
  | some packet =>
      if buffer.count = maxControl then
        buffer
      else
        ⟨Function.update buffer.entries buffer.count (some packet), buffer.count + 1⟩

/-- `flush_control`: `send_burst` releases what the queue takes, and the loop empties
the entries from there on. -/
def flush (buffer : ControlBuffer) (controlTake : Nat) : ControlBuffer :=
  if buffer.count = 0 then
    buffer
  else
    let sent := min controlTake buffer.count
    { entries := fun i =>
        if i < sent then none else if i < buffer.count then none else buffer.entries i
      count := 0 }

/-- The array holds a list of packets, and nothing behind them. -/
structure Holds (buffer : ControlBuffer) (packets : List Packet) : Prop where
  count : buffer.count = packets.length
  entries : ∀ i, buffer.entries i = packets[i]?

variable {buffer : ControlBuffer} {packets : List Packet}

theorem empty_holds : empty.Holds [] :=
  ⟨rfl, fun _ => rfl⟩

/-- `queue_control` on the array is `queued` on the list. -/
theorem Holds.queue (holds : buffer.Holds packets) (packet : Option Packet) :
    (buffer.queue packet).Holds (queued packets packet) := by
  unfold ControlBuffer.queue queued
  cases packet with
  | none => exact holds
  | some packet =>
      dsimp only
      rw [holds.count]
      split
      · exact holds
      · refine ⟨by simp, ?_⟩
        intro i
        by_cases last : i = packets.length
        · subst last
          simp
        · dsimp only
          rw [Function.update_of_ne last, holds.entries, List.getElem?_append]
          split
          · rfl
          · rename_i behind
            rw [List.getElem?_eq_none (by omega), List.getElem?_eq_none (by simp; omega)]

/-- The array after these packets have been queued. -/
def filled (packets : List Packet) : ControlBuffer :=
  packets.foldl (fun buffer packet => buffer.queue (some packet)) empty

/-- Every list of packets that fits is the content of some array. -/
theorem filled_holds (packets : List Packet) (room : packets.length ≤ maxControl) :
    (filled packets).Holds packets := by
  induction packets using List.reverseRecOn with
  | nil => exact empty_holds
  | append_singleton packets packet ih =>
      rw [List.length_append, List.length_singleton] at room
      have more := (ih (by omega)).queue (some packet)
      rw [queued, if_neg (by omega)] at more
      rw [filled, List.foldl_append]
      exact more

/-- A flush leaves the array empty, whatever the driver has taken. -/
theorem Holds.flush (holds : buffer.Holds packets) (controlTake : Nat) :
    (buffer.flush controlTake).Holds [] := by
  unfold ControlBuffer.flush
  split
  · rename_i nothing
    refine ⟨nothing, ?_⟩
    intro i
    rw [holds.entries, List.getElem?_eq_none (by rw [← holds.count, nothing]; exact Nat.zero_le i)]
    rfl
  · refine ⟨rfl, ?_⟩
    intro i
    dsimp only
    split
    · rfl
    · split
      · rfl
      · rename_i behind
        rw [holds.entries, List.getElem?_eq_none (by rw [← holds.count]; omega)]
        rfl

end ControlBuffer

/-- Fixed-capacity buffers never overflow.  In every reachable state between polls and for
every burst, each moment of the poll finds at most 96 events, no more control packets,
ACKs to send and connections to finalize than the burst has packets, so that the control
array is never full, and no more free or waiting slots than there are.  The poll returns
at most three events per packet.  It ends without control packets, and `flush_control`
leaves the array that they were queued in with a count of zero and no entry. -/
theorem buffers_never_overflow {k : TcpStack} {mem : Memory}
    (reachable : Reachable k ⟨.idle, mem⟩) (burst : Burst) (env : FlushEnv) :
    let size := burst.packets.length
    let received := (Program.forEach (process k) burst.packets).run (beginPoll.run mem).2
    let acked := (flushAcks k env.ackPool).run received.2
    (poll k burst env).Throughout
        (fun mem => Fits k size mem.rx ∧ mem.rx.control.length < maxControl) mem ∧
      ((poll k burst env).run mem).1.length ≤ 3 * size ∧
      ((poll k burst env).run mem).2.rx.control = [] ∧
      let buffer := ControlBuffer.filled acked.2.rx.control
      buffer.Holds acked.2.rx.control ∧ (buffer.flush env.controlTake).count = 0 ∧
        ∀ i, (buffer.flush env.controlTake).entries i = none := by
  intro size received acked
  have inOrder := reachable.inOrder
  have loaded := reachable.loaded
  have reaping := beginPoll_reaping inOrder loaded
  have began : Reachable k ⟨.polling 0, (beginPoll.run mem).2⟩ :=
    reachable.step (.task .beginPoll rfl) trivial
  obtain ⟨processing, accounts, load⟩ := packets_fit burst.size_le burst.packets (Nat.zero_add _)
    began.inOrder.accounts began.inOrder.ready (beginPoll_load inOrder loaded)
  obtain ⟨ending, few, replies⟩ := endPoll_fits accounts load burst.size_le env
  have idle := Fits.idle size inOrder loaded
  have fits : (poll k burst env).Throughout (fun mem => Fits k size mem.rx) mem := by
    refine Program.Throughout.bind ?_ (processing.bind (ending.bind ⟨ending.finish, ending.finish⟩))
    exact throughout_inbound_bind idle (reaping.mono fun _ => Reaping.fits)
  refine ⟨fits.mono fun mem fits => ⟨fits, ?_⟩, ?_, ?_, ?_⟩
  · refine Nat.lt_of_le_of_lt (Nat.le_trans fits.control burst.size_le) ?_
    decide
  · rw [poll, Program.run_bind', Program.run_bind', Program.run_bind']
    exact few
  · rw [poll, Program.run_bind', Program.run_bind', Program.run_bind']
    exact (endPoll_replies k _ env).2
  · have holds := ControlBuffer.filled_holds acked.2.rx.control
      (Nat.le_trans (Nat.le_trans replies burst.size_le) (by decide))
    have flushed := holds.flush env.controlTake
    exact ⟨holds, flushed.count, flushed.entries⟩

/-- A burst that opens a connection and completes its handshake with data and a FIN. -/
theorem buffers_never_overflow_of_handshake :
    let burst : Burst := ⟨[peerPacket 7 0 synFlag 1000 [],
      peerPacket 8 1 (finFlag ||| ackFlag) 1000 [104, 105]], by decide⟩
    let result := (poll singleSlot burst ⟨fun _ => true, 2⟩).run (Memory.initial singleSlot)
    result.1.length = 3 ∧ result.1.length ≤ 3 * burst.packets.length := by
  intro burst result
  exact ⟨by decide,
    (buffers_never_overflow (k := singleSlot) Run.refl burst ⟨fun _ => true, 2⟩).2.1⟩

end DpdkWrapper.Tcp
