import DpdkWrapper.Tcp.Receiver

/-!
# The outbound thread

`tcp_sender` as programs over the shared memory, with one step for each atomic
load and store and for each hand-over of a burst to the data queue.  Each
function ends with a step that records what it returns.
-/

namespace DpdkWrapper.Tcp

open Threads Wire

/-- What the pool and the data queue do during a `send`: the pool's answer for
each segment of each burst, and how many packets the queue takes of a burst. -/
structure SendEnv where
  pool : Nat → Nat → Bool
  take : Nat → Nat

/-- What the pool and the data queue do at each attempt of a `close`. -/
structure CloseEnv where
  pool : Nat → Bool
  takes : Nat → Bool

/-- Record an entry and return a value. -/
def returning {α : Type} (entry : TxEntry) (value : α) : Code α := do
  outbound (·.note entry)
  pure value

/-- The three loads of `lookup`. -/
def findSlot (k : TcpStack) (conn : ConnId) : Code Bool :=
  if conn.slot ≥ k.maxConnections then
    pure false
  else do
    let generation ← viewRx fun rx => (rx.slots conn.slot).generation
    if generation != conn.generation then
      pure false
    else do
      let out ← loadOutFlags conn.slot
      let generation ← viewRx fun rx => (rx.slots conn.slot).generation
      pure (generation == conn.generation && !hasReleased out)

/-- `lookup`: whether it returns a connection, which is then `conn.slot`'s. -/
def lookup (k : TcpStack) (conn : ConnId) : Code Bool := do
  let found ← findSlot k conn
  returning (.lookupReturned conn found) found

/-- The loads of `sendable` after a successful `lookup`. -/
def openForSending (conn : ConnId) : Code Bool := do
  let out ← loadOutFlags conn.slot
  if hasFinSent out then
    pure false
  else do
    let terminated ← viewRx fun rx => (rx.slots conn.slot).terminated
    pure !terminated

/-- `sendable`. -/
def sendable (k : TcpStack) (conn : ConnId) : Code Bool := do
  let found ← lookup k conn
  if found then do
    let result ← openForSending conn
    returning (.sendableReturned conn result) result
  else
    returning (.sendableReturned conn false) false

/-- `send_space`. -/
def sendSpace (k : TcpStack) (conn : ConnId) : Code Nat := do
  let ready ← sendable k conn
  if !ready then
    returning (.sendSpaceReturned conn 0) 0
  else do
    let found ← lookup k conn
    if !found then
      returning (.nullDereference conn) 0
    else do
      let window ← viewRx fun rx => (rx.slots conn.slot).sendWindow
      let sndNxt ← loadSndNxt conn.slot
      returning (.sendSpaceReturned conn (windowSpace window sndNxt))
        (windowSpace window sndNxt)

/-! ## Sending data -/

/-- What stays fixed during the loop of `send`. -/
structure SendPlan where
  slot : Nat
  addr : SegmentAddr
  base : BitVec 32
  ack : BitVec 32
  mss : Nat
  bytes : List Byte
  limit : Nat

/-- One segment of the inner loop of `send`, from offset `off` on. -/
def planSegment (k : TcpStack) (plan : SendPlan) (pool : Bool) (off len : Nat) :
    Option TxSegment :=
  let flags := ackFlag ||| (if off + len = plan.limit then pshFlag else 0)
  buildSegment k.mbufRoom pool plan.addr (plan.base + BitVec.ofNat 32 off) plan.ack flags
    k.receiveWindow ((plan.bytes.drop off).take len) 0

/-- The inner loop of `send`: at most `room` more segments, each with the offset
just past it. -/
def buildBurst (k : TcpStack) (plan : SendPlan) (pool : Nat → Bool) :
    Nat → Nat → Nat → List (TxSegment × Nat)
  | 0, _, _ => []
  | room + 1, n, off =>
      if off < plan.limit then
        let len := min plan.mss (plan.limit - off)
        match planSegment k plan (pool n) off len with
        | none => []
        | some segment =>
            (segment, off + len) :: buildBurst k plan pool room (n + 1) (off + len)
      else
        []

/-- The offset just past the last of some segments. -/
def endOffset (start : Nat) (built : List (TxSegment × Nat)) : Nat :=
  (built.getLast?.map (·.2)).getD start

/-- The data queue takes segments. -/
def transmit (slot : Nat) (segments : List TxSegment) : Code Unit :=
  outbound fun tx => { tx with log := (segments.map (.sent slot)).reverse ++ tx.log }

/-- The outer loop of `send`, at burst number `burst` with `done` bytes taken. -/
def sendLoop (k : TcpStack) (plan : SendPlan) (env : SendEnv) : Nat → Nat → Nat → Code Nat
  | 0, _, done => returning .fault done
  | fuel + 1, burst, done =>
      if done < plan.limit then
        let built := buildBurst k plan (env.pool burst) maxBurst 0 done
        if built.isEmpty then
          pure done
        else do
          let off := endOffset done built
          storeSndNxt plan.slot (plan.base + BitVec.ofNat 32 off)
          let sent := min (env.take burst) built.length
          transmit plan.slot ((built.take sent).map (·.1))
          if sent < built.length then do
            let taken := endOffset done (built.take sent)
            storeSndNxt plan.slot (plan.base + BitVec.ofNat 32 taken)
            pure taken
          else if built.length < maxBurst && off < plan.limit then
            pure off
          else
            sendLoop k plan env fuel (burst + 1) off
      else
        pure done

/-- `send` once `sendable` has returned true. -/
def sendOnConnection (k : TcpStack) (conn : ConnId) (bytes : List Byte) (env : SendEnv) :
    Code Nat := do
  let base ← loadSndNxt conn.slot
  let window ← viewRx fun rx => (rx.slots conn.slot).sendWindow
  let limit := min bytes.length (windowSpace window base)
  if limit == 0 then
    pure 0
  else do
    let ack ← viewRx fun rx => (rx.slots conn.slot).rcvNxt
    let c ← viewRx (·.slots conn.slot)
    let plan : SendPlan :=
      { slot := conn.slot
        addr := replyAddr k c
        base := base
        ack := ack
        mss := c.sendMss.toNat
        bytes := bytes
        limit := limit }
    -- every round but the last takes at least one byte
    sendLoop k plan env (limit + 1) 0 0

/-- `send`. -/
def send (k : TcpStack) (conn : ConnId) (bytes : List Byte) (env : SendEnv) : Code Nat :=
  if bytes.isEmpty then
    returning (.sendReturned conn bytes 0) 0
  else do
    let ready ← sendable k conn
    if !ready then
      returning (.sendReturned conn bytes 0) 0
    else do
      let found ← lookup k conn
      if !found then
        returning (.nullDereference conn) 0
      else do
        let count ← sendOnConnection k conn bytes env
        returning (.sendReturned conn bytes count) count

/-! ## Closing -/

/-- `kCloseRetries`. -/
def closeRetries : Nat := 2 ^ 20

/-- The FIN, built unless an earlier attempt has built it. -/
def buildFin (k : TcpStack) (conn : ConnId) (addr : SegmentAddr) (seq : BitVec 32)
    (pool : Bool) : Option TxSegment → Code (Option TxSegment)
  | some segment => pure (some segment)
  | none => do
      let rcvNxt ← viewRx fun rx => (rx.slots conn.slot).rcvNxt
      pure (buildSegment k.mbufRoom pool addr seq rcvNxt (finFlag ||| ackFlag)
        k.receiveWindow [] 0)

/-- The retry loop of `close`. -/
def finLoop (k : TcpStack) (conn : ConnId) (addr : SegmentAddr) (seq : BitVec 32)
    (env : CloseEnv) : Nat → Nat → Option TxSegment → Code Unit
  | 0, _, _ => pure ()
  | retries + 1, attempt, fin => do
      match ← buildFin k conn addr seq (env.pool attempt) fin with
      | none => finLoop k conn addr seq env retries (attempt + 1) none
      | some segment =>
          if env.takes attempt then
            transmit conn.slot [segment]
          else
            finLoop k conn addr seq env retries (attempt + 1) (some segment)

/-- The FIN part of `close`, which returns the new value of `out`. -/
def closeFin (k : TcpStack) (conn : ConnId) (out : BitVec 8) (env : CloseEnv) :
    Code (BitVec 8) :=
  if hasFinSent out then
    pure out
  else do
    let c ← viewRx (·.slots conn.slot)
    if c.terminated then
      pure out
    else do
      let seq ← loadSndNxt conn.slot
      storeSndNxt conn.slot (seq + 1)
      storeOutFlags conn.slot (out ||| outFinSent)
      finLoop k conn (replyAddr k c) seq env closeRetries 0 none
      pure (out ||| outFinSent)

/-- `close`. -/
def close (k : TcpStack) (conn : ConnId) (env : CloseEnv) : Code Unit := do
  let found ← lookup k conn
  if found then do
    let out ← loadOutFlags conn.slot
    let out ← closeFin k conn out env
    outbound fun tx => (tx.updateSlot conn.slot fun fields =>
      { fields with outFlags := out ||| outReleased }).note (.released conn)
    returning (.closeReturned conn) ()
  else
    returning (.closeReturned conn) ()

end DpdkWrapper.Tcp
