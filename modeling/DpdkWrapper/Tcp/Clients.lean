import DpdkWrapper.Tcp.Batching

/-!
# One client of the stack

The stack tells its clients apart by the tuple of peer address, peer port and local
port.  A `Client` is all that the stack holds and has done for one tuple, without slot
numbers, generations, the flow table and the lists that the clients share.  Its functions
say what the client's own packets and the calls on its own connections do to it, and
`Memory.client` reads it off the memory of the stack.
-/

namespace DpdkWrapper.Tcp

open Threads Wire

/-! ## Tuples -/

/-- What a connection is found by.  No packet from 0.0.0.0 gets so far. -/
structure Tuple where
  peerIp : BitVec 32
  peerPort : BitVec 16
  localPort : BitVec 16
  peerIp_ne_zero : peerIp ≠ 0

namespace Tuple

variable (tuple : Tuple)

/-- These are the tuple's addresses. -/
def is (peerIp : BitVec 32) (peerPort localPort : BitVec 16) : Bool :=
  peerIp == tuple.peerIp && peerPort == tuple.peerPort && localPort == tuple.localPort

def ofConnection (c : TcpConnection) : Bool :=
  tuple.is c.peerIp c.peerPort c.localPort

def ofEvent (event : TcpEvent) : Bool :=
  tuple.is event.peerAddr event.peerPort event.localPort

/-- A received segment comes from the client. -/
def ofSegment (seg : Segment) : Bool :=
  tuple.is seg.srcIp seg.srcPort seg.dstPort

/-- An outgoing segment goes to the client. -/
def ofReply (segment : TxSegment) : Bool :=
  tuple.is segment.addr.dstIp segment.addr.dstPort segment.addr.srcPort

/-- The client's key in the flow table. -/
def key : BitVec 64 :=
  FlowTable.key tuple.peerIp tuple.peerPort tuple.localPort

end Tuple

/-! ## Clients -/

/-- The connection that a client's packets go to.  `conn` is without its generation and
without the flags that only schedule work; `pending` says whether an ACK is due. -/
structure ClientConn where
  conn : TcpConnection
  out : OutboundFields
  pending : Bool
  deriving DecidableEq

/-- Where an accepted connection is: it is the one that packets go to, or it has ended and
waits to be released, or its slot is no longer its own. -/
inductive ConnStatus where
  | present
  | waiting (released : Bool)
  | gone
  deriving DecidableEq

namespace ConnStatus

/-- The application closes a connection that has ended. -/
def release : ConnStatus → ConnStatus
  | waiting _ => waiting true
  | status => status

/-- A connection that has ended and been closed gives up its slot. -/
def reap : ConnStatus → ConnStatus
  | waiting true => gone
  | status => status

/-- A connection ends. -/
def finalize (released : Bool) : ConnStatus → ConnStatus
  | present => if released then gone else waiting false
  | status => status

end ConnStatus

/-- An event, with the number of its connection among the accepted ones instead of its
id. -/
structure ClientEvent where
  type : TcpEventType
  number : Nat
  data : List Byte
  deriving DecidableEq

/-- What the stack holds and has done for one tuple.  `control` is in the order in which
it was queued; `notices`, `emitted` (what the control queue took) and `sent` (what the
data queue took) are newest first. -/
structure Client where
  link : Option ClientConn
  statuses : List ConnStatus
  control : List TxSegment
  notices : List ClientEvent
  emitted : List TxSegment
  sent : List TxSegment
  deriving DecidableEq

def Client.initial : Client where
  link := none
  statuses := []
  control := []
  notices := []
  emitted := []
  sent := []

/-- What can happen to a client.  A segment comes with the pool's answer, and with the
random number for a new connection if it gets a slot for one.  Calls name their
connection by its number. -/
inductive Input where
  | beginPoll
  | segment (seg : Segment) (pool : Bool) (draw : Option (BitVec 64))
  | endPoll
  | send (number : Nat) (bytes : List Byte) (env : SendEnv)
  | close (number : Nat) (env : CloseEnv)

/-! ## Calls on a connection -/

/-- The rounds of `send`: how much is taken, and what the queue gets. -/
def sendRounds (k : TcpStack) (plan : SendPlan) (env : SendEnv) :
    Nat → Nat → Nat → Nat × List TxSegment
  | 0, _, done => (done, [])
  | fuel + 1, burst, done =>
      if done < plan.limit then
        let built := buildBurst k plan (env.pool burst) maxBurst 0 done
        let sent := min (env.take burst) built.length
        let segments := (built.take sent).map (·.1)
        if built.isEmpty then
          (done, [])
        else if sent < built.length then
          (endOffset done (built.take sent), segments)
        else if built.length < maxBurst && endOffset done built < plan.limit then
          (endOffset done built, segments)
        else
          let later := sendRounds k plan env fuel (burst + 1) (endOffset done built)
          (later.1, segments ++ later.2)
      else
        (done, [])

/-- The FIN that the attempts of `close` get to the queue, if any does. -/
def finTaken (k : TcpStack) (addr : SegmentAddr) (seq rcvNxt : BitVec 32) (env : CloseEnv) :
    Nat → Nat → Option TxSegment → Option TxSegment
  | 0, _, _ => none
  | retries + 1, attempt, fin =>
      let built := fin.or (buildSegment k.mbufRoom (env.pool attempt) addr seq rcvNxt
        (finFlag ||| ackFlag) k.receiveWindow [] 0)
      if built.isSome && env.takes attempt then
        built
      else
        finTaken k addr seq rcvNxt env retries (attempt + 1) built

namespace ClientConn

variable (k : TcpStack) (link : ClientConn)

/-- The link as a session of its own. -/
def session : Session where
  slot := 0
  past := []
  conn := link.conn
  out := link.out
  history := []
  sends := []

/-- `sendable`. -/
def sendable : Bool :=
  !hasReleased link.out.outFlags && !hasFinSent link.out.outFlags && !link.conn.terminated

/-- `send_space`. -/
def sendSpace : Nat :=
  if link.sendable then windowSpace link.conn.sendWindow link.out.sndNxt else 0

/-- What `send` sets out to do. -/
def plan (bytes : List Byte) : SendPlan where
  slot := 0
  addr := replyAddr k link.conn
  base := link.out.sndNxt
  ack := link.conn.rcvNxt
  mss := link.conn.sendMss.toNat
  bytes := bytes
  limit := min bytes.length (windowSpace link.conn.sendWindow link.out.sndNxt)

/-- `send`: what it returns, and what the data queue gets. -/
def send (bytes : List Byte) (env : SendEnv) : Nat × List TxSegment :=
  if bytes.isEmpty || !link.sendable then
    (0, [])
  else
    sendRounds k (link.plan k bytes) env ((link.plan k bytes).limit + 1) 0 0

/-- `close`: the outbound fields it leaves, and what the data queue gets. -/
def close (env : CloseEnv) : OutboundFields × List TxSegment :=
  if hasReleased link.out.outFlags then
    (link.out, [])
  else if hasFinSent link.out.outFlags || link.conn.terminated then
    ({ link.out with outFlags := link.out.outFlags ||| outReleased }, [])
  else
    (⟨link.out.sndNxt + 1, link.out.outFlags ||| outFinSent ||| outReleased⟩,
      (finTaken k (replyAddr k link.conn) link.out.sndNxt link.conn.rcvNxt env closeRetries 0
        none).toList)

/-- The ACK that `flush_acks` sends. -/
def ack : Option TxSegment :=
  buildSegment k.mbufRoom true (replyAddr k link.conn) link.out.sndNxt link.conn.rcvNxtLocal
    ackFlag k.receiveWindow [] 0

/-- A connection that `open` has set up. -/
def opened (seg : Segment) (peerMss : BitVec 16) (rand : BitVec 64) : ClientConn where
  conn :=
    { initialized k seg peerMss rand {} with
      rcvNxt := seg.seq + 1
      sendWindow := packWindow (rand.setWidth 32) (seg.window.setWidth 32) }
  out := ⟨rand.setWidth 32 + 1, 0⟩
  pending := false

/-- The link after a segment. -/
def after (seg : Segment) : ClientConn where
  conn := (link.session.processSegment k seg).conn
  out := link.out
  pending := !link.session.cancels k seg && (link.pending || link.session.owes seg)

end ClientConn

/-- What an entry tells the application. -/
def RxEntry.spoken? : RxEntry → Option (TcpEventType × List Byte)
  | .event pushed => some (pushed.type, pushed.data)
  | _ => none

/-- What a history tells the application, newest first. -/
def saidIn (history : List RxEntry) : List (TcpEventType × List Byte) :=
  history.filterMap RxEntry.spoken?

/-! ## Steps of a client -/

namespace Client

variable (k : TcpStack) (client : Client)

/-- `reap_released`. -/
def beginPoll : Client :=
  { client with statuses := client.statuses.map ConnStatus.reap }

/-- A segment for the client's connection. -/
def serve (link : ClientConn) (seg : Segment) (pool : Bool) : Client :=
  let next := link.after k seg
  let accepted := !link.conn.state.accepted && next.conn.state.accepted
  let statuses := client.statuses ++ if accepted then [.present] else []
  { client with
    link := if next.conn.state = .free then none else some next
    statuses := statuses
    control := client.control ++ (link.session.reply k seg pool).toList
    notices := ((saidIn (link.session.processSegment k seg).history).map fun said =>
      ⟨said.1, statuses.idxOf .present, said.2⟩) ++ client.notices }

/-- A segment when the client has no connection: it opens one if it gets a slot, and is
refused otherwise. -/
def request (seg : Segment) (pool : Bool) (draw : Option (BitVec 64)) : Client :=
  match draw, parseMssOption seg.options with
  | some rand, some peerMss =>
      { client with
        link := some (ClientConn.opened k seg peerMss rand)
        control := client.control ++
          (synAck k (ClientConn.opened k seg peerMss rand).conn pool).toList }
  | _, _ => { client with control := client.control ++ (refusal k seg pool).toList }

/-- `process_tcp`. -/
def segment (seg : Segment) (pool : Bool) (draw : Option (BitVec 64)) : Client :=
  match client.link with
  | some link => client.serve k link seg pool
  | none => client.request k seg pool draw

/-- The ACK that is due, if any. -/
def acks : List TxSegment :=
  match client.link with
  | some link => if link.pending then (link.ack k).toList else []
  | none => []

/-- `finalize` of the client's connection. -/
def finalize : Client :=
  match client.link with
  | some link =>
      if link.conn.state = .closed then
        { client with
          link := none
          statuses := client.statuses.map (ConnStatus.finalize (hasReleased link.out.outFlags)) }
      else
        { client with link := some { link with pending := false } }
  | none => client

/-- `flush_acks`, `flush_control` and `finalize`. -/
def endPoll : Client :=
  { client.finalize with
    control := []
    emitted := (client.control ++ client.acks k).reverse ++ client.emitted }

/-- The connection with a number, as long as packets go to it. -/
def linkOf (number : Nat) : Option ClientConn :=
  if client.statuses[number]? = some .present then client.link else none

/-- What `sendable` returns for the connection with a number. -/
def sendable (number : Nat) : Bool :=
  match client.linkOf number with
  | some link => link.sendable
  | none => false

/-- What `send_space` returns for the connection with a number. -/
def sendSpace (number : Nat) : Nat :=
  match client.linkOf number with
  | some link => link.sendSpace
  | none => 0

/-- What `send` returns for the connection with a number. -/
def sendReturns (number : Nat) (bytes : List Byte) (env : SendEnv) : Nat :=
  match client.linkOf number with
  | some link => (link.send k bytes env).1
  | none => 0

/-- `send` on the connection with a number. -/
def send (number : Nat) (bytes : List Byte) (env : SendEnv) : Client :=
  match client.linkOf number with
  | some link =>
      let outcome := link.send k bytes env
      { client with
        link := some { link with
          out := { link.out with
            sndNxt := link.out.sndNxt + BitVec.ofNat 32 outcome.1 } }
        sent := outcome.2.reverse ++ client.sent }
  | none => client

/-- `close` on the connection with a number. -/
def close (number : Nat) (env : CloseEnv) : Client :=
  match client.linkOf number with
  | some link =>
      let outcome := link.close k env
      { client with
        link := some { link with out := outcome.1 }
        sent := outcome.2.reverse ++ client.sent }
  | none => { client with statuses := client.statuses.modify number ConnStatus.release }

/-- Everything that can happen to a client. -/
def step : Input → Client
  | .beginPoll => client.beginPoll
  | .segment seg pool draw => client.segment k seg pool draw
  | .endPoll => client.endPoll k
  | .send number bytes env => client.send k number bytes env
  | .close number env => client.close k number env

/-- What an action does to a client, if it is anything to it. -/
def react : Option Input → Client
  | none => client
  | some input => client.step k input

/-- One input after the other. -/
def run (inputs : List Input) : Client :=
  inputs.foldl (Client.step k) client

end Client

/-! ## The clients of a stack -/

namespace Tuple

variable (tuple : Tuple)

/-- The event tells of a connection of the client for the first time. -/
def accepts (event : TcpEvent) : Bool :=
  event.type == .accepted && tuple.ofEvent event

/-- The ids of the client's accepted connections, oldest first. -/
def names (log : List RxEntry) : List ConnId :=
  ((events log).filter tuple.accepts).map TcpEvent.conn

/-- What the application has been told about the client, newest first. -/
def notices : List RxEntry → List ClientEvent
  | [] => []
  | .event pushed :: log =>
      if tuple.ofEvent pushed then
        ⟨pushed.type, (tuple.names (.event pushed :: log)).idxOf pushed.conn, pushed.data⟩ ::
          notices log
      else
        notices log
  | _ :: log => notices log

/-- The packets that are segments to the client. -/
def repliesIn (packets : List Packet) : List TxSegment :=
  packets.filterMap fun
    | .tcp segment => if tuple.ofReply segment then some segment else none
    | .arp _ => none

/-- The segments to the client that the data queue has taken, newest first. -/
def sentIn (log : List TxEntry) : List TxSegment :=
  log.filterMap fun
    | .sent _ segment => if tuple.ofReply segment then some segment else none
    | _ => none

end Tuple

/-- A connection without its generation and the flags that only schedule work. -/
def TcpConnection.bare (c : TcpConnection) : TcpConnection :=
  { c with generation := 0, ackPending := false, finalizePending := false }

namespace Memory

variable (mem : Memory)

/-- The slot that the flow table has for a tuple. -/
def slotOf (tuple : Tuple) : Option Nat :=
  (mem.rx.flows.find tuple.key).filter (· != FlowTable.npos)

/-- The connection in a slot, on its own. -/
def link (i : Nat) : ClientConn where
  conn := (mem.rx.slots i).bare
  out := mem.tx.slots i
  pending := (mem.rx.slots i).ackPending

/-- Where the connection with an id is. -/
def status (conn : ConnId) : ConnStatus :=
  if (mem.rx.slots conn.slot).generation = conn.generation ∧
      (mem.rx.slots conn.slot).state ≠ .free then
    if conn.slot ∈ mem.rx.awaitingRelease then
      .waiting (hasReleased (mem.tx.slots conn.slot).outFlags)
    else
      .present
  else
    .gone

/-- What the stack holds and has done for a tuple. -/
def client (tuple : Tuple) : Client where
  link := (mem.slotOf tuple).map mem.link
  statuses := (tuple.names mem.rx.log).map mem.status
  control := tuple.repliesIn mem.rx.control
  notices := tuple.notices mem.rx.log
  emitted := tuple.repliesIn (emitted mem.rx.log)
  sent := tuple.sentIn mem.tx.log

/-- A segment opens a connection: it is a SYN for a port that is listened on, its tuple is
unknown, and there is a free slot. -/
def opensFor (k : TcpStack) (seg : Segment) : Bool :=
  mem.rx.flows.find (FlowTable.key seg.srcIp seg.srcPort seg.dstPort) == some FlowTable.npos &&
    requests k seg && !mem.rx.freeSlots.isEmpty

end Memory

/-- What an action is to a client, if anything. -/
def Action.input? (k : TcpStack) (tuple : Tuple) (mem : Memory) : Action → Option Input
  | .task .beginPoll => some .beginPoll
  | .task (.packet packet) =>
      match decode k packet.frame packet.contiguous with
      | some (.segment seg) =>
          if tuple.ofSegment seg then
            some (.segment seg packet.pool
              (if mem.opensFor k seg then some packet.rand else none))
          else
            none
      | _ => none
  | .task (.endPoll _) => some .endPoll
  | .call (.send conn bytes env) =>
      if conn ∈ tuple.names mem.rx.log then
        some (.send ((tuple.names mem.rx.log).idxOf conn) bytes env)
      else
        none
  | .call (.close conn env) =>
      if conn ∈ tuple.names mem.rx.log then
        some (.close ((tuple.names mem.rx.log).idxOf conn) env)
      else
        none
  | .call _ => none

end DpdkWrapper.Tcp
