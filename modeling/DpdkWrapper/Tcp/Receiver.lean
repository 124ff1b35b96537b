import DpdkWrapper.Tcp.Decode

/-!
# The inbound thread

`tcp_receiver::impl` as programs over the shared memory.  Every atomic load and
store of a connection is a step of its own; plain fields of the inbound thread
change together with the next step, since no other thread reads them.  What the
environment decides is an argument: whether the pool has a buffer, what the
random generator returns, and how much of a burst a queue takes.
-/

namespace DpdkWrapper.Tcp

open Arp Threads Wire

/-- A received packet, with what `rte_rand` and the pool return while it is
processed. -/
structure RxPacket where
  frame : List Byte
  contiguous : Bool
  rand : BitVec 64
  pool : Bool

/-- What `poll` gets at most once per packet: `packet_burst`. -/
structure Burst where
  packets : List RxPacket
  size_le : packets.length ≤ maxBurst

/-- What the pool and the control queue do at the end of a poll: the pool's
answer for each entry of `ack_list`, and how many packets the queue takes. -/
structure FlushEnv where
  ackPool : Nat → Bool
  controlTake : Nat

/-! ## Plain parts -/

namespace Receiver

/-- `make_event`. -/
def makeEvent (rx : Receiver) (type : TcpEventType) (idx : Nat) (data : List Byte) :
    TcpEvent where
  type := type
  conn := ⟨idx, (rx.slots idx).generation⟩
  data := data
  peerAddr := (rx.slots idx).peerIp
  peerPort := (rx.slots idx).peerPort
  localPort := (rx.slots idx).localPort

/-- `events.push_back(make_event(..))`. -/
def pushEvent (rx : Receiver) (type : TcpEventType) (idx : Nat) (data : List Byte) :
    Receiver :=
  { rx with
    events := rx.events ++ [rx.makeEvent type idx data]
    log := .event (rx.makeEvent type idx data) :: rx.log }

/-- `queue_control`; an empty packet counts as dropped. -/
def queueControl (rx : Receiver) : Option Packet → Receiver
  | none => rx.count .controlTxDropped
  | some packet =>
      if rx.control.length = maxControl then
        rx.count .controlTxDropped
      else
        { rx with control := rx.control ++ [packet] }

/-- `queue_ack`. -/
def queueAck (rx : Receiver) (idx : Nat) : Receiver :=
  if (rx.slots idx).ackPending then
    rx
  else
    { rx.updateSlot idx (fun c => { c with ackPending := true }) with
      ackList := rx.ackList ++ [idx] }

/-- `schedule_finalize`. -/
def scheduleFinalize (rx : Receiver) (idx : Nat) : Receiver :=
  if (rx.slots idx).finalizePending then
    rx
  else
    { rx.updateSlot idx (fun c => { c with finalizePending := true }) with
      finalizeList := rx.finalizeList ++ [idx] }

/-- `release_slot`. -/
def releaseSlot (rx : Receiver) (idx : Nat) : Receiver :=
  { rx.updateSlot idx
      (fun c => { c with state := .free, ackPending := false, finalizePending := false })
    with freeSlots := idx :: rx.freeSlots }

/-- `flow_table::key` of the connection in a slot. -/
def flowKey (rx : Receiver) (idx : Nat) : BitVec 64 :=
  FlowTable.key (rx.slots idx).peerIp (rx.slots idx).peerPort (rx.slots idx).localPort

/-- `flows.erase` of a slot's own key. -/
def eraseFlow (rx : Receiver) (idx : Nat) : Receiver :=
  match rx.flows.erase (rx.flowKey idx) with
  | none => rx.note .fault
  | some flows => { rx with flows := flows }

/-- `flows.insert` of a slot under its own key. -/
def insertFlow (rx : Receiver) (idx : Nat) : Receiver :=
  match rx.flows.insert (rx.flowKey idx) idx with
  | none => rx.note .fault
  | some flows => { rx with flows := flows }

/-! ### What the plain parts leave alone -/

variable (rx : Receiver) (type : TcpEventType) (idx i : Nat) (data : List Byte)

@[simp]
theorem pushEvent_slots : (rx.pushEvent type idx data).slots = rx.slots := rfl

@[simp]
theorem pushEvent_flows : (rx.pushEvent type idx data).flows = rx.flows := rfl

@[simp]
theorem pushEvent_freeSlots : (rx.pushEvent type idx data).freeSlots = rx.freeSlots := rfl

@[simp]
theorem pushEvent_awaitingRelease :
    (rx.pushEvent type idx data).awaitingRelease = rx.awaitingRelease := rfl

@[simp]
theorem pushEvent_finalizeList : (rx.pushEvent type idx data).finalizeList = rx.finalizeList := rfl

@[simp]
theorem pushEvent_log : (rx.pushEvent type idx data).log =
    .event (rx.makeEvent type idx data) :: rx.log := rfl

variable (packet : Option Packet)

@[simp]
theorem queueControl_slots : (rx.queueControl packet).slots = rx.slots := by
  unfold queueControl
  split <;> try split
  all_goals rfl

@[simp]
theorem queueControl_frame :
    (rx.queueControl packet).flows = rx.flows ∧
    (rx.queueControl packet).freeSlots = rx.freeSlots ∧
    (rx.queueControl packet).awaitingRelease = rx.awaitingRelease ∧
    (rx.queueControl packet).finalizeList = rx.finalizeList := by
  unfold queueControl
  split <;> try split
  all_goals exact ⟨rfl, rfl, rfl, rfl⟩

@[simp]
theorem queueControl_log : (rx.queueControl packet).log = rx.log := by
  unfold queueControl
  split <;> try split
  all_goals rfl

@[simp]
theorem queueAck_slots :
    (rx.queueAck idx).slots i =
      if i = idx then { rx.slots i with ackPending := true } else rx.slots i := by
  by_cases same : i = idx
  · subst same
    unfold queueAck
    split
    · rename_i pending
      rw [if_pos rfl, ← pending]
    · simp
  · unfold queueAck
    split <;> simp [same]

@[simp]
theorem queueAck_frame :
    (rx.queueAck idx).flows = rx.flows ∧
    (rx.queueAck idx).freeSlots = rx.freeSlots ∧
    (rx.queueAck idx).awaitingRelease = rx.awaitingRelease ∧
    (rx.queueAck idx).finalizeList = rx.finalizeList := by
  unfold queueAck
  split <;> exact ⟨rfl, rfl, rfl, rfl⟩

@[simp]
theorem queueAck_log : (rx.queueAck idx).log = rx.log := by
  unfold queueAck
  split <;> rfl

@[simp]
theorem scheduleFinalize_slots :
    (rx.scheduleFinalize idx).slots i =
      if i = idx then { rx.slots i with finalizePending := true } else rx.slots i := by
  by_cases same : i = idx
  · subst same
    unfold scheduleFinalize
    split
    · rename_i pending
      rw [if_pos rfl, ← pending]
    · simp
  · unfold scheduleFinalize
    split <;> simp [same]

@[simp]
theorem scheduleFinalize_frame :
    (rx.scheduleFinalize idx).flows = rx.flows ∧
    (rx.scheduleFinalize idx).freeSlots = rx.freeSlots ∧
    (rx.scheduleFinalize idx).awaitingRelease = rx.awaitingRelease := by
  unfold scheduleFinalize
  split <;> exact ⟨rfl, rfl, rfl⟩

@[simp]
theorem scheduleFinalize_log : (rx.scheduleFinalize idx).log = rx.log := by
  unfold scheduleFinalize
  split <;> rfl

@[simp]
theorem releaseSlot_slots :
    (rx.releaseSlot idx).slots i =
      if i = idx then
        { rx.slots i with state := .free, ackPending := false, finalizePending := false }
      else rx.slots i := by
  simp [releaseSlot]

@[simp]
theorem releaseSlot_freeSlots : (rx.releaseSlot idx).freeSlots = idx :: rx.freeSlots := rfl

@[simp]
theorem releaseSlot_flows : (rx.releaseSlot idx).flows = rx.flows := rfl

@[simp]
theorem releaseSlot_awaitingRelease :
    (rx.releaseSlot idx).awaitingRelease = rx.awaitingRelease := rfl

@[simp]
theorem releaseSlot_finalizeList : (rx.releaseSlot idx).finalizeList = rx.finalizeList := rfl

@[simp]
theorem releaseSlot_log : (rx.releaseSlot idx).log = rx.log := rfl

end Receiver

/-- `reply_addr`. -/
def replyAddr (k : TcpStack) (c : TcpConnection) : SegmentAddr :=
  { srcMac := k.localMac
    dstMac := c.peerMac
    srcIp := k.localIp
    dstIp := c.peerIp
    srcPort := c.localPort
    dstPort := c.peerPort }

/-- The RST that answers a segment without a connection. -/
def rstFor (k : TcpStack) (seg : Segment) (pool : Bool) : Option TxSegment :=
  let addr : SegmentAddr :=
    { srcMac := k.localMac
      dstMac := seg.ethSrc
      srcIp := k.localIp
      dstIp := seg.srcIp
      srcPort := seg.dstPort
      dstPort := seg.srcPort }
  if seg.has ackFlag then
    buildSegment k.mbufRoom pool addr seg.ack 0 rstFlag 0 [] 0
  else
    let occupied := seg.len + (if seg.has synFlag then 1 else 0) +
      (if seg.has finFlag then 1 else 0)
    buildSegment k.mbufRoom pool addr 0 (seg.seq + occupied) (rstFlag ||| ackFlag) 0 [] 0

/-- `send_rst_for`. -/
def sendRstFor (k : TcpStack) (rx : Receiver) (seg : Segment) (pool : Bool) : Receiver :=
  if seg.has rstFlag then
    rx
  else
    (rx.count .rstSent).queueControl ((rstFor k seg pool).map .tcp)

/-- The SYN-ACK of a connection. -/
def synAck (k : TcpStack) (c : TcpConnection) (pool : Bool) : Option TxSegment :=
  buildSegment k.mbufRoom pool (replyAddr k c) c.iss c.rcvNxtLocal (synFlag ||| ackFlag)
    k.receiveWindow [] k.mss

/-- `send_syn_ack`. -/
def sendSynAck (k : TcpStack) (rx : Receiver) (c : TcpConnection) (pool : Bool) :
    Receiver :=
  rx.queueControl ((synAck k c pool).map .tcp)

/-- `rst_acceptable`. -/
def rstAcceptable (k : TcpStack) (c : TcpConnection) (seg : Segment) : Bool :=
  seqGeq seg.seq c.rcvNxtLocal &&
    seqLt seg.seq (c.rcvNxtLocal + k.receiveWindow.setWidth 32)

/-- The private part of `process_ack` on an ACK that is not beyond `snd_nxt`. -/
def recordAck (seg : Segment) (c : TcpConnection) : TcpConnection :=
  let c := if seqGt seg.ack c.sndUna then { c with sndUna := seg.ack } else c
  if seqGeq seg.ack c.sndUna &&
      (seqLt c.sndWl1 seg.seq || (c.sndWl1 == seg.seq && seqLeq c.sndWl2 seg.ack)) then
    { c with sndWnd := seg.window.setWidth 32, sndWl1 := seg.seq, sndWl2 := seg.ack }
  else
    c

theorem recordAck_eq (seg : Segment) (c : TcpConnection) :
    ∃ una wnd wl1 wl2, recordAck seg c =
      { c with sndUna := una, sndWnd := wnd, sndWl1 := wl1, sndWl2 := wl2 } := by
  unfold recordAck
  dsimp only
  split <;> split <;> exact ⟨_, _, _, _, rfl⟩

/-- `changed`: the ACK moved `snd_una` or the window. -/
def ackChanges (seg : Segment) (c : TcpConnection) : Bool :=
  (recordAck seg c).sndUna != c.sndUna || (recordAck seg c).sndWnd != c.sndWnd

/-- The final ACK of the handshake sets and publishes the window. -/
def firstAck (seg : Segment) (c : TcpConnection) : TcpConnection :=
  { c with
    sndUna := seg.ack
    sndWnd := seg.window.setWidth 32
    sndWl1 := seg.seq
    sndWl2 := seg.ack
    sendWindow := packWindow seg.ack (seg.window.setWidth 32) }

/-- A connection as `open` initializes its plain fields. -/
def initialized (k : TcpStack) (seg : Segment) (peerMss : BitVec 16) (rand : BitVec 64)
    (c : TcpConnection) : TcpConnection :=
  { c with
    peerIp := seg.srcIp
    peerPort := seg.srcPort
    localPort := seg.dstPort
    peerMac := seg.ethSrc
    sendMss := if peerMss ≤ k.mss then peerMss else k.mss
    iss := rand.setWidth 32
    irs := seg.seq
    rcvNxtLocal := seg.seq + 1
    sndUna := rand.setWidth 32
    sndWnd := seg.window.setWidth 32
    sndWl1 := seg.seq
    sndWl2 := 0
    state := .synReceived
    ackPending := false
    finalizePending := false }

/-- The next generation, which skips zero. -/
def nextGeneration (generation : BitVec 32) : BitVec 32 :=
  if generation + 1 = 0 then 1 else generation + 1

/-- In-order delivery: the part of the payload from `rcv_nxt` on, if any. -/
def deliver (idx : Nat) (seg : Segment) (rx : Receiver) : Receiver :=
  let rcvNxt := (rx.slots idx).rcvNxtLocal
  if seqGt (seg.seq + seg.len) rcvNxt then
    (rx.pushEvent .data idx (seg.payload.drop (rcvNxt - seg.seq).toNat)).updateSlot idx
      fun c => { c with rcvNxtLocal := seg.seq + seg.len }
  else
    rx

@[simp]
theorem deliver_state (idx : Nat) (seg : Segment) (rx : Receiver) :
    ((deliver idx seg rx).slots idx).state = (rx.slots idx).state := by
  simp only [deliver]
  split <;> simp

/-! ## Programs -/

/-- `publish_window`. -/
def publishWindow (idx : Nat) : Code Unit :=
  inbound fun rx => rx.updateSlot idx fun c =>
    { c with sendWindow := packWindow c.sndUna c.sndWnd }

/-- `terminate`. -/
def terminate (idx : Nat) (why : TcpEventType) : Code Unit := do
  inbound fun rx => rx.updateSlot idx fun c =>
    { c with
      state := .closed
      terminated := true
      ackPending := if why = .reset then false else c.ackPending }
  inbound fun rx => (rx.pushEvent why idx []).scheduleFinalize idx

/-- The six stores of `open`, in their order, and what precedes and follows
them.  `idx` is the slot taken off the free list. -/
def openSlot (k : TcpStack) (idx : Nat) (seg : Segment) (peerMss : BitVec 16)
    (rand : BitVec 64) (pool : Bool) : Code Unit := do
  let generation ← viewRx fun rx => (rx.slots idx).generation
  inbound fun rx =>
    ({ rx with freeSlots := rx.freeSlots.tail }.updateSlot idx fun c =>
      { initialized k seg peerMss rand c with
        generation := nextGeneration generation }).note (.opened idx)
  inbound fun rx => rx.updateSlot idx fun c => { c with rcvNxt := c.rcvNxtLocal }
  publishWindow idx
  inbound fun rx => rx.updateSlot idx fun c => { c with terminated := false }
  storeSndNxt idx (rand.setWidth 32 + 1)
  outbound fun tx => (tx.updateSlot idx fun fields =>
    { fields with outFlags := 0 }).note (.opened idx)
  inbound fun rx => sendSynAck k (rx.insertFlow idx) (rx.slots idx) pool

/-- `open`. -/
def openConnection (k : TcpStack) (seg : Segment) (rand : BitVec 64) (pool : Bool) :
    Code Unit := do
  match ← viewRx (·.freeSlots) with
  | [] => inbound fun rx => sendRstFor k (rx.count .noFreeSlot) seg pool
  | idx :: _ =>
      match parseMssOption seg.options with
      | none => inbound (·.note .fault)
      | some peerMss => openSlot k idx seg peerMss rand pool

/-- `sync_out_flags`. -/
def syncOutFlags (idx : Nat) : Code Unit := do
  let out ← loadOutFlags idx
  Program.when (hasFinSent out) (inbound fun rx => rx.updateSlot idx fun c =>
    match c.state with
    | .established => { c with state := .finWait1 }
    | .closeWait => { c with state := .lastAck }
    | _ => c)

/-- What `process_ack` makes of an ACK. -/
inductive AckCheck where
  | refused
  | recorded (sndNxt : BitVec 32) (changed : Bool)

/-- The load of `snd_nxt` in `process_ack`, with the private bookkeeping up to
the publication of the window. -/
def checkAck (idx : Nat) (seg : Segment) : Code AckCheck :=
  Program.atomically fun mem =>
    let sndNxt := (mem.tx.slots idx).sndNxt
    if seqGt seg.ack sndNxt then
      (.refused,
        { mem with
          rx := (mem.rx.queueAck idx).note (.ackRefused idx seg.ack sndNxt) })
    else
      (.recorded sndNxt (ackChanges seg (mem.rx.slots idx)),
        { mem with rx := mem.rx.updateSlot idx (recordAck seg) })

/-- The end of `process_ack`: the ACK may be that of our FIN. -/
def finishAck (idx : Nat) (seg : Segment) (out : BitVec 8) (sndNxt : BitVec 32) :
    Code Bool :=
  if hasFinSent out && seg.ack == sndNxt then do
    match ← viewRx fun rx => (rx.slots idx).state with
    | .finWait1 => do
        inbound fun rx => rx.updateSlot idx fun c => { c with state := .finWait2 }
        pure true
    | .closing | .lastAck => do
        terminate idx .closed
        pure false
    | _ => pure true
  else
    pure true

/-- `process_ack`: whether to go on with the payload. -/
def processAck (idx : Nat) (seg : Segment) : Code Bool := do
  let out ← loadOutFlags idx
  match ← checkAck idx seg with
  | .refused => pure false
  | .recorded sndNxt changed => do
      Program.when changed (publishWindow idx)
      finishAck idx seg out sndNxt

/-- The peer's FIN, in order: it takes a sequence number. -/
def takeFin (idx : Nat) (rx : Receiver) : Receiver :=
  (rx.updateSlot idx fun c => { c with rcvNxtLocal := c.rcvNxtLocal + 1 }).note
    (.finConsumed idx)

/-- The FIN handling of `process_data`. -/
def consumeFin (idx : Nat) : Code Unit := do
  match ← viewRx fun rx => (rx.slots idx).state with
  | .established =>
      inbound fun rx => ((takeFin idx rx).updateSlot idx fun c =>
        { c with state := .closeWait }).pushEvent .peerClosed idx []
  | .finWait1 =>
      inbound fun rx => (takeFin idx rx).updateSlot idx fun c =>
        { c with state := .closing }
  | .finWait2 => do
      inbound (takeFin idx)
      terminate idx .closed
  | _ => inbound (takeFin idx)

/-- `process_data`. -/
def processData (idx : Nat) (seg : Segment) : Code Unit := do
  let c ← viewRx (·.slots idx)
  if !c.state.canReceive then
    Program.when (seg.len != 0 || seg.has finFlag) (inbound (·.queueAck idx))
  else if seg.len == 0 && !seg.has finFlag then
    pure ()
  else if seqGt seg.seq c.rcvNxtLocal then
    inbound fun rx => (rx.count .outOfOrder).queueAck idx
  else do
    inbound fun rx => (deliver idx seg rx).queueAck idx
    let rcvNxt ← viewRx fun rx => (rx.slots idx).rcvNxtLocal
    Program.when (seg.has finFlag && seg.seq + seg.len == rcvNxt) (consumeFin idx)
    inbound fun rx => rx.updateSlot idx fun c => { c with rcvNxt := c.rcvNxtLocal }

/-- The `syn_received` case of `process_segment`. -/
def processHandshake (k : TcpStack) (idx : Nat) (seg : Segment) (pool : Bool) :
    Code Unit := do
  let c ← viewRx (·.slots idx)
  if seg.has rstFlag then
    Program.when (rstAcceptable k c seg) (inbound fun rx =>
      ((rx.count .rstReceived).eraseFlow idx).releaseSlot idx)
  else if seg.has synFlag then
    Program.when (!seg.has ackFlag && seg.seq == c.irs)
      (inbound fun rx => sendSynAck k rx c pool)
  else if !seg.has ackFlag then
    pure ()
  else if seg.ack != c.iss + 1 then
    inbound fun rx => sendRstFor k rx seg pool
  else do
    inbound fun rx => rx.updateSlot idx (firstAck seg)
    inbound fun rx => (rx.updateSlot idx fun c =>
      { c with state := .established }).pushEvent .accepted idx []
    processData idx seg

/-- `process_segment` on a synchronized connection. -/
def processSynchronized (k : TcpStack) (idx : Nat) (seg : Segment) : Code Unit := do
  let c ← viewRx (·.slots idx)
  if seg.has rstFlag then
    Program.when (rstAcceptable k c seg) do
      inbound (·.count .rstReceived)
      terminate idx .reset
  else if seg.has synFlag then
    inbound (·.queueAck idx)
  else if !seg.has ackFlag then
    pure ()
  else do
    let proceed ← processAck idx seg
    Program.when proceed (processData idx seg)

/-- `process_segment`. -/
def processSegment (k : TcpStack) (idx : Nat) (seg : Segment) (pool : Bool) :
    Code Unit := do
  syncOutFlags idx
  match ← viewRx fun rx => (rx.slots idx).state with
  | .free | .closed => pure ()
  | .synReceived => processHandshake k idx seg pool
  | _ => processSynchronized k idx seg

/-- The end of `process_tcp`: find the connection of a parsed segment. -/
def processTcp (k : TcpStack) (seg : Segment) (rand : BitVec 64) (pool : Bool) :
    Code Unit := do
  match ← viewRx fun rx =>
      rx.flows.find (FlowTable.key seg.srcIp seg.srcPort seg.dstPort) with
  | none => inbound (·.note .fault)
  | some idx =>
      if idx != FlowTable.npos then
        processSegment k idx seg pool
      else if seg.has synFlag && !seg.has ackFlag && !seg.has rstFlag &&
          k.listening.contains seg.dstPort then
        openConnection k seg rand pool
      else
        inbound fun rx => sendRstFor k rx seg pool

/-- `process` on an ARP frame. -/
def processArp (k : TcpStack) (packet : RxPacket) (rx : Receiver) : Receiver :=
  match handleArp packet.frame (packetLength packet.frame) k.localMac k.localIp
      rx.neighbors k.mbufRoom packet.pool with
  | none => rx.note .fault
  | some outcome =>
      let rx := { rx with neighbors := outcome.neighbors }
      if outcome.result = .replied then
        rx.queueControl (outcome.reply.map .arp)
      else
        rx

/-- `process`. -/
def process (k : TcpStack) (packet : RxPacket) : Code Unit :=
  match decode k packet.frame packet.contiguous with
  | none => inbound (·.note .fault)
  | some .ignored => pure ()
  | some (.dropped counter) => inbound (·.count counter)
  | some .arp => inbound (processArp k packet)
  | some (.segment seg) => processTcp k seg packet.rand packet.pool

/-- The swap-removal of entry `i` of `awaiting_release`. -/
def swapRemove (entries : List Nat) (i : Nat) : List Nat :=
  (entries.set i (entries.getLast?.getD 0)).dropLast

theorem perm_swapRemove {entries : List Nat} {i idx : Nat} (found : entries[i]? = some idx) :
    entries.Perm (idx :: swapRemove entries i) := by
  obtain ⟨inside, rfl⟩ := List.getElem?_eq_some_iff.mp found
  obtain ⟨front, last, rfl⟩ : ∃ front last, entries = front ++ [last] :=
    ⟨_, _, (List.dropLast_append_getLast (List.ne_nil_of_length_pos (by omega))).symm⟩
  have back : (front ++ [last]).getLast?.getD 0 = last := by simp
  rw [List.length_append, List.length_singleton] at inside
  rw [swapRemove, back]
  by_cases middle : i < front.length
  · have split : front = front.take i ++ front[i] :: front.drop (i + 1) := by simp
    rw [List.getElem_append_left middle, List.set_append_left _ _ middle,
      List.dropLast_concat, List.set_eq_take_append_cons_drop, if_pos middle]
    have taken : front.Perm (front[i] :: (front.take i ++ front.drop (i + 1))) :=
      (List.Perm.of_eq split).trans List.perm_middle
    calc
      (front ++ [last]).Perm (last :: front) := List.perm_append_singleton last front
      List.Perm _ (last :: front[i] :: (front.take i ++ front.drop (i + 1))) := taken.cons last
      List.Perm _ (front[i] :: last :: (front.take i ++ front.drop (i + 1))) :=
        List.Perm.swap _ _ _
      List.Perm _ (front[i] :: (front.take i ++ last :: front.drop (i + 1))) :=
        List.perm_middle.symm.cons front[i]
  · obtain rfl : i = front.length := by omega
    simp

/-- The loop of `reap_released` from index `i` on. -/
def reapLoop : Nat → Nat → Code Unit
  | 0, _ => inbound (·.note .fault)
  | fuel + 1, i => do
      match ← viewRx (·.awaitingRelease[i]?) with
      | none => pure ()
      | some idx => do
          let out ← loadOutFlags idx
          if hasReleased out then do
            inbound fun rx =>
              { rx.releaseSlot idx with
                awaitingRelease := swapRemove rx.awaitingRelease i }
            reapLoop fuel i
          else
            reapLoop fuel (i + 1)

/-- `reap_released`: every iteration removes an entry or passes one. -/
def reapReleased : Code Unit := do
  let count ← viewRx (·.awaitingRelease.length)
  reapLoop (count + 1) 0

/-- One iteration of `flush_acks`; an entry comes with its position. -/
def flushAck (k : TcpStack) (ackPool : Nat → Bool) (entry : Nat × Nat) : Code Unit := do
  let c ← viewRx (·.slots entry.1)
  Program.when c.ackPending do
    let sndNxt ← loadSndNxt entry.1
    inbound fun rx =>
      (rx.updateSlot entry.1 fun c => { c with ackPending := false }).queueControl
        ((buildSegment k.mbufRoom (ackPool entry.2) (replyAddr k c) sndNxt c.rcvNxtLocal
          ackFlag k.receiveWindow [] 0).map .tcp)

/-- `flush_acks`. -/
def flushAcks (k : TcpStack) (ackPool : Nat → Bool) : Code Unit := do
  let entries ← viewRx (·.ackList)
  Program.forEach (flushAck k ackPool) entries.zipIdx
  inbound fun rx => { rx with ackList := [] }

/-- `flush_control`: the queue takes a prefix. -/
def flushControl (controlTake : Nat) (rx : Receiver) : Receiver :=
  let sent := min controlTake rx.control.length
  { rx with
    stats := Function.update rx.stats .controlTxDropped
      (rx.stats .controlTxDropped + (rx.control.length - sent))
    control := []
    log := ((rx.control.take sent).map .controlSent).reverse ++ rx.log }

/-- One iteration of `finalize`. -/
def finalizeSlot (idx : Nat) : Code Unit := do
  inbound fun rx =>
    (rx.updateSlot idx fun c => { c with finalizePending := false }).eraseFlow idx
  let out ← loadOutFlags idx
  if hasReleased out then
    inbound (·.releaseSlot idx)
  else
    inbound fun rx => { rx with awaitingRelease := rx.awaitingRelease ++ [idx] }

/-- `finalize`. -/
def finalize : Code Unit := do
  let entries ← viewRx (·.finalizeList)
  Program.forEach finalizeSlot entries
  inbound fun rx => { rx with finalizeList := [] }

/-- The start of `poll`. -/
def beginPoll : Code Unit := do
  inbound fun rx => { rx with events := [] }
  reapReleased

/-- The end of `poll`. -/
def endPoll (k : TcpStack) (env : FlushEnv) : Code Unit := do
  flushAcks k env.ackPool
  inbound (flushControl env.controlTake)
  finalize

/-- `poll`. -/
def poll (k : TcpStack) (burst : Burst) (env : FlushEnv) : Code (List TcpEvent) := do
  beginPoll
  Program.forEach (process k) burst.packets
  endPoll k env
  viewRx (·.events)

end DpdkWrapper.Tcp
