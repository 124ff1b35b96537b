import DpdkWrapper.Tcp.Slots

/-!
# One connection on its own

A `Session` is a slot together with what has happened to its connection since it
was opened.  The functions of this file restate `process_segment` for a session
alone: no lists, no counters, no control packets, no other connection.  Each of
them is connected to the program it restates by a theorem that says what the
program does to the session of its slot and that it leaves all other sessions
alone.
-/

namespace DpdkWrapper.Tcp

open Threads Wire

/-- Whether an entry is about the connection in a slot. -/
def RxEntry.concerns (slot : Nat) : RxEntry → Bool
  | .event pushed => pushed.conn.slot == slot
  | .finConsumed owner => owner == slot
  | .ackRefused owner _ _ => owner == slot
  | _ => false

/-- What has happened to the connection in a slot since it was opened, newest
first. -/
def history (slot : Nat) (log : List RxEntry) : List RxEntry :=
  (rxSince slot log).filter (RxEntry.concerns slot)

/-- The histories of the earlier connections in a slot, newest first; the last one
is that of the slot before it was opened at all. -/
def past (slot : Nat) : List RxEntry → List (List RxEntry)
  | [] => []
  | entry :: log =>
      if entry = .opened slot then history slot log :: past slot log else past slot log

/-- Whether an entry is about sending on the connection in a slot. -/
def TxEntry.concerns (slot : Nat) : TxEntry → Bool
  | .sent owner _ => owner == slot
  | .sendReturned conn _ _ => conn.slot == slot
  | _ => false

/-- What has been sent on the connection in a slot since it was opened, newest
first. -/
def sends (slot : Nat) (log : List TxEntry) : List TxEntry :=
  (txSince slot log).filter (TxEntry.concerns slot)

/-- A connection without the flags that only schedule work. -/
def TcpConnection.core (c : TcpConnection) : TcpConnection :=
  { c with ackPending := false, finalizePending := false }

/-- A slot with the histories of its connections. -/
structure Session where
  slot : Nat
  past : List (List RxEntry)
  conn : TcpConnection
  out : OutboundFields
  history : List RxEntry
  sends : List TxEntry

def Memory.session (mem : Memory) (i : Nat) : Session where
  slot := i
  past := past i mem.rx.log
  conn := (mem.rx.slots i).core
  out := mem.tx.slots i
  history := history i mem.rx.log
  sends := sends i mem.tx.log

section

variable (mem : Memory) (i : Nat)

@[simp]
theorem session_slot : (mem.session i).slot = i := rfl

@[simp]
theorem session_out : (mem.session i).out = mem.tx.slots i := rfl

@[simp]
theorem session_state : (mem.session i).conn.state = (mem.rx.slots i).state := rfl

@[simp]
theorem session_rcvNxtLocal :
    (mem.session i).conn.rcvNxtLocal = (mem.rx.slots i).rcvNxtLocal := rfl

@[simp]
theorem session_iss : (mem.session i).conn.iss = (mem.rx.slots i).iss := rfl

@[simp]
theorem session_history : (mem.session i).history = history i mem.rx.log := rfl

end

namespace Session

/-- How often the slot has been opened. -/
def opens (session : Session) : Nat :=
  session.past.length

/-- Append to the history. -/
def note (session : Session) (entry : RxEntry) : Session :=
  { session with history := entry :: session.history }

/-- `make_event`. -/
def makeEvent (session : Session) (type : TcpEventType) (data : List Byte) : TcpEvent where
  type := type
  conn := ⟨session.slot, session.conn.generation⟩
  data := data
  peerAddr := session.conn.peerIp
  peerPort := session.conn.peerPort
  localPort := session.conn.localPort

/-- `events.push_back`. -/
def push (session : Session) (type : TcpEventType) (data : List Byte) : Session :=
  session.note (.event (session.makeEvent type data))

/-- Change the connection. -/
def update (session : Session) (change : TcpConnection → TcpConnection) : Session :=
  { session with conn := change session.conn }

def setState (session : Session) (state : TcpState) : Session :=
  session.update fun c => { c with state := state }

/-- `terminate`. -/
def terminate (session : Session) (why : TcpEventType) : Session :=
  (session.update fun c => { c with state := .closed, terminated := true }).push why []

/-- `sync_out_flags`. -/
def syncOutFlags (session : Session) : Session :=
  if hasFinSent session.out.outFlags then
    session.update fun c =>
      match c.state with
      | .established => { c with state := .finWait1 }
      | .closeWait => { c with state := .lastAck }
      | _ => c
  else
    session

/-- The end of `process_ack`. -/
def finishAck (session : Session) (seg : Segment) : Bool × Session :=
  if hasFinSent session.out.outFlags && seg.ack == session.out.sndNxt then
    match session.conn.state with
    | .finWait1 => (true, session.setState .finWait2)
    | .closing | .lastAck => (false, session.terminate .closed)
    | _ => (true, session)
  else
    (true, session)

/-- Record an ACK and publish the window if it has changed. -/
def record (session : Session) (seg : Segment) : Session :=
  session.update fun c =>
    if ackChanges seg c then
      { recordAck seg c with
        sendWindow := packWindow (recordAck seg c).sndUna (recordAck seg c).sndWnd }
    else
      recordAck seg c

/-- `process_ack`. -/
def processAck (session : Session) (seg : Segment) : Bool × Session :=
  if seqGt seg.ack session.out.sndNxt then
    (false, session.note (.ackRefused session.slot seg.ack session.out.sndNxt))
  else
    (session.record seg).finishAck seg

/-- In-order delivery. -/
def deliver (session : Session) (seg : Segment) : Session :=
  if seqGt (seg.seq + seg.len) session.conn.rcvNxtLocal then
    (session.push .data
      (seg.payload.drop (session.conn.rcvNxtLocal - seg.seq).toNat)).update
        fun c => { c with rcvNxtLocal := seg.seq + seg.len }
  else
    session

/-- The peer's FIN takes a sequence number. -/
def takeFin (session : Session) : Session :=
  (session.update fun c => { c with rcvNxtLocal := c.rcvNxtLocal + 1 }).note
    (.finConsumed session.slot)

/-- The FIN handling of `process_data`. -/
def consumeFin (session : Session) : Session :=
  match session.conn.state with
  | .established =>
      (session.takeFin.setState .closeWait).push .peerClosed []
  | .finWait1 => session.takeFin.setState .closing
  | .finWait2 => session.takeFin.terminate .closed
  | _ => session.takeFin

/-- `rcv_nxt.store`. -/
def publishRcvNxt (session : Session) : Session :=
  session.update fun c => { c with rcvNxt := c.rcvNxtLocal }

/-- The in-order case of `process_data`. -/
def accept (session : Session) (seg : Segment) : Session :=
  let delivered := session.deliver seg
  if seg.has finFlag && seg.seq + seg.len == delivered.conn.rcvNxtLocal then
    delivered.consumeFin.publishRcvNxt
  else
    delivered.publishRcvNxt

/-- `process_data`. -/
def processData (session : Session) (seg : Segment) : Session :=
  if !session.conn.state.canReceive then
    session
  else if seg.len == 0 && !seg.has finFlag then
    session
  else if seqGt seg.seq session.conn.rcvNxtLocal then
    session
  else
    session.accept seg

/-- The end of the handshake. -/
def establish (session : Session) (seg : Segment) : Session :=
  ((session.update (firstAck seg)).setState .established).push .accepted []

/-- The `syn_received` case of `process_segment`. -/
def processHandshake (k : TcpStack) (session : Session) (seg : Segment) : Session :=
  if seg.has rstFlag then
    if rstAcceptable k session.conn seg then
      session.setState .free
    else
      session
  else if seg.has synFlag || !seg.has ackFlag || seg.ack != session.conn.iss + 1 then
    session
  else
    (session.establish seg).processData seg

/-- `process_segment` on a synchronized connection. -/
def processSynchronized (k : TcpStack) (session : Session) (seg : Segment) : Session :=
  if seg.has rstFlag then
    if rstAcceptable k session.conn seg then session.terminate .reset else session
  else if seg.has synFlag || !seg.has ackFlag then
    session
  else
    let checked := session.processAck seg
    if checked.1 then checked.2.processData seg else checked.2

/-- `open`, once its slot is off the free list. -/
def openFor (k : TcpStack) (session : Session) (seg : Segment) (peerMss : BitVec 16)
    (rand : BitVec 64) : Session where
  slot := session.slot
  past := session.history :: session.past
  conn :=
    { initialized k seg peerMss rand session.conn with
      generation := nextGeneration session.conn.generation
      rcvNxt := seg.seq + 1
      sendWindow := packWindow (rand.setWidth 32) (seg.window.setWidth 32)
      terminated := false }
  out := ⟨rand.setWidth 32 + 1, 0⟩
  history := []
  sends := []

/-- `process_segment`. -/
def processSegment (k : TcpStack) (session : Session) (seg : Segment) : Session :=
  let synced := session.syncOutFlags
  match synced.conn.state with
  | .free | .closed => synced
  | .synReceived => synced.processHandshake k seg
  | _ => synced.processSynchronized k seg

end Session

end DpdkWrapper.Tcp
