import DpdkWrapper.Threads.Views
import DpdkWrapper.Tcp.PureAcks

/-!
# What packets do apart from answering them

The outline of the memory leaves out the ACKs that are due, the control packets, the
events of the current poll and the counters.  `process` sees no more than the outline:
whether an earlier ACK is still due makes no difference to anything but the ACKs.

A step that sees the outline only is `OutlineLocal`, and a program whose steps are all of this
kind respects the equality of outlines.  The lemmas follow the programs of the receiver from
single steps to `process`.  Batching rests on them.
-/

namespace DpdkWrapper.Tcp

open Arp Threads Wire

/-! ## Outlines -/

/-- A connection without `ack_pending`. -/
def TcpConnection.mute (c : TcpConnection) : TcpConnection :=
  { c with ackPending := false }

/-- The entry is about a control packet. -/
def RxEntry.isControl : RxEntry → Bool
  | .controlSent _ => true
  | _ => false

def Receiver.outline (rx : Receiver) : Receiver :=
  { rx with
    slots := fun i => (rx.slots i).mute
    stats := fun _ => 0
    ackList := []
    control := []
    events := []
    log := rx.log.filter (!·.isControl) }

def Memory.outline (mem : Memory) : Memory :=
  ⟨mem.rx.outline, mem.tx⟩

/-- What the outlines of two receivers have to agree on. -/
structure Receiver.SameOutline (rx rx' : Receiver) : Prop where
  slots : ∀ i, (rx.slots i).mute = (rx'.slots i).mute
  neighbors : rx.neighbors = rx'.neighbors
  flows : rx.flows = rx'.flows
  freeSlots : rx.freeSlots = rx'.freeSlots
  awaitingRelease : rx.awaitingRelease = rx'.awaitingRelease
  finalizeList : rx.finalizeList = rx'.finalizeList
  log : rx.log.filter (!·.isControl) = rx'.log.filter (!·.isControl)

theorem Receiver.SameOutline.outline {rx rx' : Receiver} (same : rx.SameOutline rx') :
    rx.outline = rx'.outline := by
  have slots : (fun i => (rx.slots i).mute) = fun i => (rx'.slots i).mute := funext same.slots
  rw [Receiver.outline, Receiver.outline, slots, same.neighbors, same.flows, same.freeSlots,
    same.awaitingRelease, same.finalizeList, same.log]

theorem Receiver.SameOutline.of_outline (rx : Receiver) : rx.SameOutline rx.outline :=
  ⟨fun _ => rfl, rfl, rfl, rfl, rfl, rfl, by simp [Receiver.outline]⟩

/-- The packets that the control queue has taken, newest first. -/
def emitted (log : List RxEntry) : List Packet :=
  log.filterMap fun
    | .controlSent packet => some packet
    | _ => none

/-- Memories with the same outline, after the control queue has taken these packets. -/
structure OutlineEquiv (packets packets' : List Packet) (mem mem' : Memory) : Prop where
  outline : mem.outline = mem'.outline
  first : emitted mem.rx.log = packets
  second : emitted mem'.rx.log = packets'

/-- A step that needs the outline only, and gives nothing to the control queue. -/
structure OutlineLocal (change : Receiver → Receiver) : Prop where
  outline : ∀ rx : Receiver, (change rx).outline = (change rx.outline).outline
  quiet : ∀ rx : Receiver, emitted (change rx).log = emitted rx.log

namespace OutlineLocal

variable {first second : Receiver → Receiver} {idx : Nat} {packets packets' : List Packet}

theorem comp (left : OutlineLocal first) (right : OutlineLocal second) : OutlineLocal fun rx =>
    second (first rx) where
  outline rx := by rw [right.outline, left.outline, ← right.outline]
  quiet rx := (right.quiet _).trans (left.quiet rx)

/-- Two memories with the same outline have the same outline after such a step. -/
theorem respects {change : Receiver → Receiver} (outlined : OutlineLocal change) :
    (inbound change).Respects (OutlineEquiv packets packets') := by
  apply Program.Respects.modify
  rintro ⟨rx, tx⟩ ⟨rx', tx'⟩ ⟨same, rfl, rfl⟩
  obtain ⟨sameRx, rfl⟩ := Memory.mk.inj same
  refine ⟨?_, outlined.quiet rx, outlined.quiet rx'⟩
  rw [Memory.outline, Memory.outline, outlined.outline, sameRx, ← outlined.outline]

/-- A step of which the outline does not show all. -/
theorem congr {change after : Receiver → Receiver} (outlined : OutlineLocal change)
    (same : ∀ rx : Receiver, (after rx).SameOutline (change rx))
    (log : ∀ rx : Receiver, (after rx).log = (change rx).log) : OutlineLocal after where
  outline rx := by rw [(same rx).outline, (same rx.outline).outline, outlined.outline]
  quiet rx := by rw [log, outlined.quiet]

theorem id : OutlineLocal fun rx => rx :=
  ⟨fun rx => (Receiver.SameOutline.of_outline rx).outline, fun _ => rfl⟩

theorem of_outline {change : Receiver → Receiver}
    (same : ∀ rx : Receiver, (change rx).SameOutline (change rx.outline))
    (log : ∀ rx : Receiver, (change rx).log = rx.log) : OutlineLocal change :=
  ⟨fun rx => (same rx).outline, fun rx => by rw [log]⟩

/-- A change of a connection that does not depend on `ack_pending`. -/
theorem updateSlot {change : TcpConnection → TcpConnection}
    (deaf : ∀ c : TcpConnection, (change c).mute = (change c.mute).mute) :
    OutlineLocal fun rx => rx.updateSlot idx change := by
  refine of_outline (fun rx => ?_) fun _ => rfl
  have original := Receiver.SameOutline.of_outline rx
  refine ⟨fun i => ?_, rfl, rfl, rfl, rfl, rfl, original.log⟩
  rw [Receiver.updateSlot_slots, Receiver.updateSlot_slots]
  split
  · exact deaf _
  · rfl

theorem queueAck : OutlineLocal fun rx => rx.queueAck idx := by
  refine id.congr (fun rx => ?_) fun rx => rx.queueAck_log idx
  obtain ⟨flows, free, awaiting, finalizing⟩ := rx.queueAck_frame idx
  refine ⟨?_, ?_, flows, free, awaiting, finalizing, by rw [rx.queueAck_log]⟩
  · intro i
    rw [Receiver.queueAck_slots]
    split
    · rfl
    · rfl
  · unfold Receiver.queueAck
    split
    · rfl
    · rfl

theorem count (counter : Counter) : OutlineLocal fun rx => rx.count counter :=
  id.congr (fun _ => ⟨fun _ => rfl, rfl, rfl, rfl, rfl, rfl, rfl⟩) fun _ => rfl

theorem queueControl {change : Receiver → Receiver} (outlined : OutlineLocal change)
    (packet : Receiver → Option Packet) : OutlineLocal fun rx =>
    (change rx).queueControl (packet rx) := by
  refine outlined.congr (fun rx => ?_) fun rx => (change rx).queueControl_log _
  rw [queueControl_others]
  exact ⟨fun _ => rfl, rfl, rfl, rfl, rfl, rfl, rfl⟩

/-- A log entry that is read off the outline. -/
theorem noteOf {entry : Receiver → RxEntry} (known : ∀ rx : Receiver, entry rx = entry rx.outline)
    (other : ∀ rx : Receiver, (entry rx).isControl = false) :
    OutlineLocal fun rx => rx.note (entry rx) where
  outline rx := by
    have original := Receiver.SameOutline.of_outline rx
    apply Receiver.SameOutline.outline
    refine ⟨original.slots, rfl, rfl, rfl, rfl, rfl, ?_⟩
    rw [Receiver.note_log, Receiver.note_log, ← known, List.filter_cons, List.filter_cons,
      original.log]
  quiet rx := by
    have silent := other rx
    rw [Receiver.note_log, emitted, List.filterMap_cons]
    cases kind : entry rx with
    | controlSent packet =>
        rw [kind] at silent
        cases silent
    | _ => rfl

theorem note {entry : RxEntry} (other : entry.isControl = false) : OutlineLocal fun rx =>
    rx.note entry :=
  noteOf (fun _ => rfl) fun _ => other

theorem pushEvent (type : TcpEventType) (data : Receiver → List Byte)
    (known : ∀ rx : Receiver, data rx = data rx.outline) :
    OutlineLocal fun rx => rx.pushEvent type idx (data rx) := by
  have logged : OutlineLocal fun rx => rx.note (.event (rx.makeEvent type idx (data rx))) :=
    noteOf (fun rx => by rw [known rx]; rfl) fun _ => rfl
  exact ⟨logged.outline, logged.quiet⟩

theorem ite {condition : Receiver → Prop} [∀ rx, Decidable (condition rx)]
    (known : ∀ rx : Receiver, condition rx ↔ condition rx.outline) (whenTrue : OutlineLocal first)
    (whenFalse : OutlineLocal second) : OutlineLocal fun rx =>
    if condition rx then first rx else second rx where
  outline rx := by
    by_cases holds : condition rx
    · rw [if_pos holds, if_pos ((known rx).mp holds), whenTrue.outline]
    · rw [if_neg holds, if_neg (mt (known rx).mpr holds), whenFalse.outline]
  quiet rx := by
    split
    · exact whenTrue.quiet rx
    · exact whenFalse.quiet rx

theorem scheduleFinalize : OutlineLocal fun rx => rx.scheduleFinalize idx := by
  apply ite (fun _ => Iff.rfl) id
  have scheduled : OutlineLocal fun rx => rx.updateSlot idx fun c =>
      { c with finalizePending := true } :=
    updateSlot fun _ => rfl
  refine ⟨fun rx => ?_, scheduled.quiet⟩
  have same := congrArg (fun rx' : Receiver =>
    { rx' with finalizeList := rx.finalizeList ++ [idx] }) (scheduled.outline rx)
  exact same

theorem releaseSlot : OutlineLocal fun rx => rx.releaseSlot idx := by
  refine of_outline (fun rx => ?_) fun _ => rfl
  have original := Receiver.SameOutline.of_outline rx
  refine ⟨fun i => ?_, rfl, rfl, rfl, rfl, rfl, original.log⟩
  rw [Receiver.releaseSlot_slots, Receiver.releaseSlot_slots]
  split
  · rfl
  · rfl

/-- A change of the flow table under the key of a slot. -/
theorem changeFlows (change : FlowTable → BitVec 64 → Option FlowTable) :
    OutlineLocal fun rx =>
      match change rx.flows (rx.flowKey idx) with
      | none => rx.note .fault
      | some flows => { rx with flows := flows } := by
  have failed : OutlineLocal fun rx => rx.note .fault := note rfl
  constructor
  · intro rx
    have original := Receiver.SameOutline.of_outline rx
    change Receiver.outline (match change rx.flows (rx.flowKey idx) with
      | none => rx.note .fault
      | some flows => { rx with flows := flows }) =
      Receiver.outline (match change rx.flows (rx.flowKey idx) with
      | none => rx.outline.note .fault
      | some flows => { rx.outline with flows := flows })
    cases change rx.flows (rx.flowKey idx) with
    | none => exact failed.outline rx
    | some flows =>
        exact Receiver.SameOutline.outline ⟨original.slots, rfl, rfl, rfl, rfl, rfl, original.log⟩
  · intro rx
    cases change rx.flows (rx.flowKey idx) with
    | none => exact failed.quiet rx
    | some flows => rfl

theorem eraseFlow : OutlineLocal fun rx => rx.eraseFlow idx :=
  changeFlows FlowTable.erase

theorem insertFlow : OutlineLocal fun rx => rx.insertFlow idx :=
  changeFlows fun flows key => flows.insert key idx

theorem sendRstFor {change : Receiver → Receiver} (outlined : OutlineLocal change) (k : TcpStack)
    (seg : Segment) (pool : Bool) : OutlineLocal fun rx =>
    Tcp.sendRstFor k (change rx) seg pool := by
  unfold Tcp.sendRstFor
  split
  · exact outlined
  · exact (outlined.comp (count .rstSent)).queueControl _

theorem deliver (seg : Segment) : OutlineLocal fun rx => Tcp.deliver idx seg rx := by
  apply ite (fun _ => Iff.rfl)
  · exact (pushEvent .data _ fun _ => rfl).comp (updateSlot fun _ => rfl)
  · exact id

theorem takeFin : OutlineLocal fun rx => Tcp.takeFin idx rx := by
  have counted : OutlineLocal fun rx => rx.updateSlot idx fun c =>
      { c with rcvNxtLocal := c.rcvNxtLocal + 1 } := updateSlot fun _ => rfl
  have noted : OutlineLocal fun rx => rx.note (.finConsumed idx) := note rfl
  exact counted.comp noted

theorem processArp (k : TcpStack) (packet : RxPacket) :
    OutlineLocal fun rx => Tcp.processArp k packet rx := by
  have failed : OutlineLocal fun rx => rx.note .fault := note rfl
  have learned (neighbors : NeighborTable) : OutlineLocal fun rx =>
      { rx with neighbors := neighbors } :=
    of_outline (fun rx => ⟨fun _ => rfl, rfl, rfl, rfl, rfl, rfl,
      (Receiver.SameOutline.of_outline rx).log⟩) fun _ => rfl
  unfold Tcp.processArp
  constructor
  · intro rx
    have same : rx.outline.neighbors = rx.neighbors := rfl
    dsimp only
    rw [same]
    cases handleArp packet.frame (packetLength packet.frame) k.localMac k.localIp rx.neighbors
      k.mbufRoom packet.pool with
    | none => exact failed.outline rx
    | some outcome =>
        dsimp only
        split
        · exact ((learned outcome.neighbors).queueControl fun _ =>
            outcome.reply.map .arp).outline rx
        · exact (learned outcome.neighbors).outline rx
  · intro rx
    dsimp only
    cases handleArp packet.frame (packetLength packet.frame) k.localMac k.localIp rx.neighbors
      k.mbufRoom packet.pool with
    | none => exact failed.quiet rx
    | some outcome =>
        dsimp only
        split
        · exact ((learned outcome.neighbors).queueControl fun _ =>
            outcome.reply.map .arp).quiet rx
        · rfl

end OutlineLocal

/-! ## Programs -/

section Programs

variable {packets packets' : List Packet}
variable (k : TcpStack) (idx : Nat) (seg : Segment) (pool : Bool)

/-- A read of the outline. -/
theorem viewRx_respects {α β : Type} {value : Receiver → α} {rest : α → Code β}
    (known : ∀ rx : Receiver, rest (value rx) = rest (value rx.outline))
    (further : ∀ value, (rest value).Respects (OutlineEquiv packets packets')) :
    (viewRx value >>= rest).Respects (OutlineEquiv packets packets') := by
  apply Program.Respects.read_bind _ further
  rintro mem mem' same
  have rx : mem.rx.outline = mem'.rx.outline := (Memory.mk.inj same.outline).1
  rw [known, rx, ← known]

theorem loadOutFlags_respects : (loadOutFlags idx).Respects (OutlineEquiv packets packets') := by
  rintro ⟨rx, tx⟩ ⟨rx', tx'⟩ same
  obtain ⟨_, rfl⟩ := Memory.mk.inj same.outline
  exact ⟨rfl, same⟩

theorem outbound_respects (change : Sender → Sender) :
    (outbound change).Respects (OutlineEquiv packets packets') := by
  apply Program.Respects.modify
  rintro ⟨rx, tx⟩ ⟨rx', tx'⟩ same
  obtain ⟨sameRx, rfl⟩ := Memory.mk.inj same.outline
  refine ⟨?_, same.first, same.second⟩
  rw [Memory.outline, Memory.outline, sameRx]

theorem updateSlot_respects {change : TcpConnection → TcpConnection}
    (deaf : ∀ c : TcpConnection, (change c).mute = (change c.mute).mute) :
    (inbound fun rx => rx.updateSlot idx change).Respects (OutlineEquiv packets packets') :=
  (OutlineLocal.updateSlot deaf).respects

theorem terminate_respects (why : TcpEventType) :
    (terminate idx why).Respects (OutlineEquiv packets packets') := by
  apply (updateSlot_respects idx fun _ => rfl).bind
  intro _
  exact ((OutlineLocal.pushEvent why (fun _ => []) fun _ => rfl).comp
    OutlineLocal.scheduleFinalize).respects

theorem syncOutFlags_respects : (syncOutFlags idx).Respects (OutlineEquiv packets packets') := by
  apply (loadOutFlags_respects idx).bind
  intro out
  apply Program.Respects.when
  apply updateSlot_respects
  rintro ⟨_, _, _, _, _, _, state, _, _, _, _, _, _, _, _, _, _, _, _⟩
  cases state <;> rfl

theorem recordAck_mute (c : TcpConnection) :
    (recordAck seg c).mute = (recordAck seg c.mute).mute := by
  unfold recordAck TcpConnection.mute
  dsimp only
  split <;> split <;> rfl

theorem checkAck_respects : (checkAck idx seg).Respects (OutlineEquiv packets packets') := by
  rintro ⟨rx, tx⟩ ⟨rx', tx'⟩ ⟨same, rfl, rfl⟩
  obtain ⟨sameRx, rfl⟩ := Memory.mk.inj same
  have refusal (sndNxt : BitVec 32) : OutlineLocal fun rx =>
      rx.note (.ackRefused idx seg.ack sndNxt) :=
    .note rfl
  have refuses (sndNxt : BitVec 32) :
      OutlineLocal fun rx => (rx.queueAck idx).note (.ackRefused idx seg.ack sndNxt) :=
    OutlineLocal.queueAck.comp (refusal sndNxt)
  have records : OutlineLocal fun rx => rx.updateSlot idx (recordAck seg) :=
    .updateSlot (recordAck_mute seg)
  unfold checkAck
  rw [Program.run_atomically, Program.run_atomically]
  dsimp only
  split
  · refine ⟨rfl, ?_, (refuses _).quiet rx, (refuses _).quiet rx'⟩
    rw [Memory.outline, Memory.outline, (refuses _).outline, sameRx, ← (refuses _).outline]
  · constructor
    · have mute : (rx.slots idx).mute = (rx'.slots idx).mute :=
        congrFun (congrArg Receiver.slots sameRx) idx
      have core : (rx.slots idx).core = (rx'.slots idx).core := by
        change (rx.slots idx).mute.core = (rx'.slots idx).mute.core
        rw [mute]
      rw [← ackChanges_core, core, ackChanges_core]
    · refine ⟨?_, records.quiet rx, records.quiet rx'⟩
      rw [Memory.outline, Memory.outline, records.outline, sameRx, ← records.outline]

theorem finishAck_respects (out : BitVec 8) (sndNxt : BitVec 32) :
    (finishAck idx seg out sndNxt).Respects (OutlineEquiv packets packets') := by
  apply Program.Respects.ite _ (.done true)
  apply viewRx_respects (fun _ => rfl)
  intro state
  have moves : (inbound fun rx => rx.updateSlot idx fun c =>
      { c with state := .finWait2 }).Respects (OutlineEquiv packets packets') :=
        updateSlot_respects idx fun _ => rfl
  cases state with
  | finWait1 => exact moves.bind fun _ => .done true
  | closing | lastAck => exact (terminate_respects idx .closed).bind fun _ => .done false
  | _ => exact .done true

/-- `process_ack` sees the outline only. -/
theorem processAck_respects : (processAck idx seg).Respects (OutlineEquiv packets packets') := by
  apply (loadOutFlags_respects idx).bind
  intro out
  apply (checkAck_respects idx seg).bind
  intro check
  cases check with
  | refused => exact .done false
  | recorded sndNxt changed =>
      apply Program.Respects.bind (.when (updateSlot_respects idx fun _ => rfl))
      exact fun _ => finishAck_respects idx seg out sndNxt

theorem consumeFin_respects : (consumeFin idx).Respects (OutlineEquiv packets packets') := by
  apply viewRx_respects (fun _ => rfl)
  intro state
  have moves (next : TcpState) : OutlineLocal fun rx => rx.updateSlot idx fun c =>
      { c with state := next } :=
    .updateSlot fun _ => rfl
  cases state with
  | established =>
      exact ((OutlineLocal.takeFin.comp (moves .closeWait)).comp
        (.pushEvent .peerClosed (fun _ => []) fun _ => rfl)).respects
  | finWait1 => exact (OutlineLocal.takeFin.comp (moves .closing)).respects
  | finWait2 => exact OutlineLocal.takeFin.respects.bind fun _ => terminate_respects idx .closed
  | _ => exact OutlineLocal.takeFin.respects

/-- `process_data` sees the outline only: an ACK that is due already does not matter. -/
theorem processData_respects : (processData idx seg).Respects (OutlineEquiv packets packets') := by
  apply viewRx_respects (fun _ => rfl)
  intro c
  apply Program.Respects.ite (.when OutlineLocal.queueAck.respects)
  apply Program.Respects.ite (.done ())
  apply Program.Respects.ite ((OutlineLocal.count .outOfOrder).comp OutlineLocal.queueAck).respects
  apply ((OutlineLocal.deliver seg).comp OutlineLocal.queueAck).respects.bind
  intro _
  apply viewRx_respects (fun _ => rfl)
  intro rcvNxt
  apply Program.Respects.bind (.when (consumeFin_respects idx))
  exact fun _ => updateSlot_respects idx fun _ => rfl

theorem processHandshake_respects : (processHandshake k idx seg pool).Respects
    (OutlineEquiv packets packets') := by
  apply viewRx_respects (fun _ => rfl)
  intro c
  have established : OutlineLocal fun rx => rx.updateSlot idx fun c =>
      { c with state := .established } :=
    .updateSlot fun _ => rfl
  apply Program.Respects.ite
  · exact .when (((OutlineLocal.count .rstReceived).comp OutlineLocal.eraseFlow).comp
      OutlineLocal.releaseSlot).respects
  apply Program.Respects.ite
  · exact .when (OutlineLocal.id.queueControl fun _ => (synAck k c pool).map .tcp).respects
  apply Program.Respects.ite (.done ())
  apply Program.Respects.ite
  · exact (OutlineLocal.id.sendRstFor k seg pool).respects
  apply (updateSlot_respects idx fun _ => rfl).bind
  intro _
  apply (established.comp (.pushEvent .accepted (fun _ => []) fun _ => rfl)).respects.bind
  exact fun _ => processData_respects idx seg

theorem processSynchronized_respects : (processSynchronized k idx seg).Respects
    (OutlineEquiv packets packets') := by
  apply viewRx_respects (fun _ => rfl)
  intro c
  apply Program.Respects.ite
  · apply Program.Respects.when
    exact (OutlineLocal.count .rstReceived).respects.bind fun _ => terminate_respects idx .reset
  apply Program.Respects.ite OutlineLocal.queueAck.respects
  apply Program.Respects.ite (.done ())
  apply (processAck_respects idx seg).bind
  exact fun _ => .when (processData_respects idx seg)

/-- A segment of a connection sees the outline only. -/
theorem processSegment_respects : (processSegment k idx seg pool).Respects
    (OutlineEquiv packets packets') := by
  apply (syncOutFlags_respects idx).bind
  intro _
  apply viewRx_respects (fun _ => rfl)
  intro state
  cases state with
  | free | closed => exact .done ()
  | synReceived => exact processHandshake_respects k idx seg pool
  | _ => exact processSynchronized_respects k idx seg

/-- Opening a connection sees the outline only. -/
theorem openSlot_respects (peerMss : BitVec 16) (rand : BitVec 64) :
    (openSlot k idx seg peerMss rand pool).Respects (OutlineEquiv packets packets') := by
  apply viewRx_respects (fun _ => rfl)
  intro generation
  have taken : OutlineLocal fun rx => { rx with freeSlots := rx.freeSlots.tail } :=
    .of_outline (fun rx => ⟨fun _ => rfl, rfl, rfl, rfl, rfl, rfl,
      (Receiver.SameOutline.of_outline rx).log⟩) fun _ => rfl
  have opened : OutlineLocal fun rx => rx.note (.opened idx) := .note rfl
  have filled : OutlineLocal fun rx => rx.updateSlot idx fun c =>
      { initialized k seg peerMss rand c with generation := nextGeneration generation } :=
    .updateSlot fun _ => rfl
  apply ((taken.comp filled).comp opened).respects.bind
  intro _
  apply (updateSlot_respects idx fun _ => rfl).bind
  intro _
  apply (updateSlot_respects idx fun _ => rfl).bind
  intro _
  apply (updateSlot_respects idx fun _ => rfl).bind
  intro _
  apply (outbound_respects _).bind
  intro _
  apply (outbound_respects _).bind
  intro _
  exact (OutlineLocal.insertFlow.queueControl fun rx =>
    (synAck k (rx.slots idx) pool).map .tcp).respects

theorem fault_respects : (inbound (·.note .fault)).Respects (OutlineEquiv packets packets') := by
  have failed : OutlineLocal fun rx => rx.note .fault := .note rfl
  exact failed.respects

theorem openConnection_respects (rand : BitVec 64) :
    (openConnection k seg rand pool).Respects (OutlineEquiv packets packets') := by
  apply viewRx_respects (fun _ => rfl)
  intro free
  cases free with
  | nil => exact ((OutlineLocal.count .noFreeSlot).sendRstFor k seg pool).respects
  | cons idx rest =>
      dsimp only
      cases parseMssOption seg.options with
      | none => exact fault_respects
      | some peerMss => exact openSlot_respects k idx seg pool peerMss rand

theorem processTcp_respects (rand : BitVec 64) :
    (processTcp k seg rand pool).Respects (OutlineEquiv packets packets') := by
  apply viewRx_respects (fun _ => rfl)
  intro found
  cases found with
  | none => exact fault_respects
  | some idx =>
      apply Program.Respects.ite (processSegment_respects k idx seg pool)
      apply Program.Respects.ite (openConnection_respects k seg pool rand)
      exact (OutlineLocal.id.sendRstFor k seg pool).respects

theorem process_respects (packet : RxPacket) :
    (process k packet).Respects (OutlineEquiv packets packets') := by
  unfold process
  split
  · exact fault_respects
  · exact .done ()
  · exact (OutlineLocal.count _).respects
  · exact (OutlineLocal.processArp k packet).respects
  · exact processTcp_respects k _ packet.pool packet.rand

end Programs

end DpdkWrapper.Tcp
