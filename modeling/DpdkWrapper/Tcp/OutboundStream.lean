import DpdkWrapper.Tcp.SessionRuns

/-!
# The outbound byte stream

What the data queue takes for a connection is one stream: the bytes that the
`send` calls have accepted, in order and without gaps, and at most one FIN after
them.

`Outbox` is the invariant of a session: its segments carry the accepted bytes from the first one
on, `snd_nxt` is where they end, and a FIN is the last of them.  One lemma for each outcome of a
call keeps it: refused, sent, finished and released.
-/

namespace DpdkWrapper.Tcp

open Wire

/-- The bytes that a `send` on an id has accepted: as many as it returned. -/
def TxEntry.accepted (conn : ConnId) : TxEntry → List Byte
  | .sendReturned caller bytes count => if caller = conn then bytes.take count else []
  | _ => []

/-- The segments that the queue has taken, in order. -/
def segments (sends : List TxEntry) : List TxSegment :=
  sends.reverse.filterMap TxEntry.segment

/-- The bytes that the `send` calls on an id have accepted, in order. -/
def acceptedBytes (conn : ConnId) (sends : List TxEntry) : List Byte :=
  sends.reverse.flatMap (TxEntry.accepted conn)

/-- Segments that cover the range from one offset to another, in order and without
gaps or overlaps; none of them is empty, larger than the MSS, or a FIN. -/
inductive Contiguous (base : BitVec 32) (mss : Nat) : Nat → List TxSegment → Nat → Prop
  | nil (off : Nat) : Contiguous base mss off [] off
  | cons {off stop : Nat} {segment : TxSegment} {rest : List TxSegment}
      (positive : 0 < segment.payload.length) (fits : segment.payload.length ≤ mss)
      (seq : segment.seq = base + BitVec.ofNat 32 off)
      (noFin : segment.flags &&& finFlag = 0)
      (tail : Contiguous base mss (off + segment.payload.length) rest stop) :
      Contiguous base mss off (segment :: rest) stop

theorem Contiguous.append {base : BitVec 32} {mss start middle stop : Nat}
    {first second : List TxSegment} (left : Contiguous base mss start first middle)
    (right : Contiguous base mss middle second stop) :
    Contiguous base mss start (first ++ second) stop := by
  induction left with
  | nil => exact right
  | cons positive fits seq noFin _ ih => exact .cons positive fits seq noFin (ih right)

/-- What carries a range of an argument is contiguous, at offsets counted from an
earlier origin. -/
theorem Carries.contiguous {base : BitVec 32} {mss start stop : Nat} {bytes : List Byte}
    {sent : List TxSegment} (origin : Nat)
    (carries : Carries (base + BitVec.ofNat 32 origin) mss bytes start sent stop) :
    Contiguous base mss (origin + start) sent (origin + stop) := by
  induction carries with
  | nil => exact .nil _
  | @cons off len stop segment rest positive fits inside seq payload noFin tail ih =>
      have length : segment.payload.length = len := by
        rw [payload, List.length_take, List.length_drop]
        omega
      refine .cons (by omega) (by omega) ?_ noFin ?_
      · rw [seq, BitVec.add_assoc, ← BitVec.ofNat_add]
      · rw [length, Nat.add_assoc]
        exact ih

@[simp]
theorem segments_cons (entry : TxEntry) (sends : List TxEntry) :
    segments (entry :: sends) = segments sends ++ entry.segment.toList := by
  rw [segments, List.reverse_cons, List.filterMap_append, segments]
  cases found : entry.segment <;> simp [found]

@[simp]
theorem acceptedBytes_cons (conn : ConnId) (entry : TxEntry) (sends : List TxEntry) :
    acceptedBytes conn (entry :: sends) = acceptedBytes conn sends ++ entry.accepted conn := by
  simp [acceptedBytes]

theorem segments_transmitted (slot : Nat) (sent : List TxSegment) (sends : List TxEntry) :
    segments ((sent.map (.sent slot)).reverse ++ sends) = segments sends ++ sent := by
  rw [segments, List.reverse_append, List.reverse_reverse, List.filterMap_append, segments,
    List.filterMap_map]
  congr 1
  exact List.filterMap_some

theorem acceptedBytes_transmitted (conn : ConnId) (slot : Nat) (sent : List TxSegment)
    (sends : List TxEntry) :
    acceptedBytes conn ((sent.map (.sent slot)).reverse ++ sends) =
      acceptedBytes conn sends := by
  rw [acceptedBytes, List.reverse_append, List.reverse_reverse, List.flatMap_append,
    acceptedBytes, List.flatMap_map]
  simp [TxEntry.accepted]

/-! ## The stream of a connection -/

/-- The segments of a connection are its accepted bytes and then at most one FIN,
which is there only after it was published. -/
structure Outbox (iss : BitVec 32) (mss : Nat) (conn : ConnId) (out : OutboundFields)
    (sends : List TxEntry) (data fin : List TxSegment) : Prop where
  segments : segments sends = data ++ fin
  contiguous : Contiguous (iss + 1) mss 0 data (acceptedBytes conn sends).length
  payloads : data.flatMap (·.payload) = acceptedBytes conn sends
  single : fin.length ≤ 1
  isFin : ∀ segment ∈ fin,
    IsFin (iss + 1 + BitVec.ofNat 32 (acceptedBytes conn sends).length) segment
  published : fin ≠ [] → hasFinSent out.outFlags = true
  sndNxt : out.sndNxt = iss + 1 + BitVec.ofNat 32 (acceptedBytes conn sends).length +
    if hasFinSent out.outFlags then 1 else 0

namespace Outbox

variable {iss : BitVec 32} {mss : Nat} {conn : ConnId} {out : OutboundFields}
  {sends : List TxEntry} {data fin : List TxSegment}

theorem empty (iss : BitVec 32) (mss : Nat) (conn : ConnId) :
    Outbox iss mss conn ⟨iss + 1, 0⟩ [] [] [] where
  segments := rfl
  contiguous := .nil 0
  payloads := rfl
  single := Nat.zero_le 1
  isFin := by simp
  published := by simp
  sndNxt := by simp [acceptedBytes, show hasFinSent 0#8 = false from rfl]

section

variable (outbox : Outbox iss mss conn out sends data fin)
include outbox

/-- Nothing was sent before the FIN was published. -/
theorem fin_eq_nil (unpublished : hasFinSent out.outFlags = false) : fin = [] := by
  by_contra some
  rw [outbox.published some] at unpublished
  cases unpublished

/-- A call that accepts nothing. -/
theorem refused (caller : ConnId) (bytes : List Byte) :
    Outbox iss mss conn out (.sendReturned caller bytes 0 :: sends) data fin := by
  have same : acceptedBytes conn (.sendReturned caller bytes 0 :: sends) =
      acceptedBytes conn sends := by simp [TxEntry.accepted]
  constructor
  case segments => simpa [TxEntry.segment] using outbox.segments
  case single => exact outbox.single
  case published => exact outbox.published
  all_goals rw [same]
  case contiguous => exact outbox.contiguous
  case payloads => exact outbox.payloads
  case isFin => exact outbox.isFin
  case sndNxt => exact outbox.sndNxt

/-- A `send` that hands over segments. -/
theorem sent {bytes : List Byte} {count : Nat} {taken : List TxSegment}
    (unpublished : hasFinSent out.outFlags = false) (inside : count ≤ bytes.length)
    (carries : Carries out.sndNxt mss bytes 0 taken count) (slot : Nat) :
    Outbox iss mss conn { out with sndNxt := out.sndNxt + BitVec.ofNat 32 count }
      (.sendReturned conn bytes count :: ((taken.map (.sent slot)).reverse ++ sends))
      (data ++ taken) [] := by
  have start : out.sndNxt =
      iss + 1 + BitVec.ofNat 32 (acceptedBytes conn sends).length := by
    have next := outbox.sndNxt
    rw [unpublished] at next
    simpa using next
  have total : acceptedBytes conn
      (.sendReturned conn bytes count :: ((taken.map (.sent slot)).reverse ++ sends)) =
        acceptedBytes conn sends ++ bytes.take count := by
    simp [acceptedBytes_transmitted, TxEntry.accepted]
  have length : (acceptedBytes conn sends ++ bytes.take count).length =
      (acceptedBytes conn sends).length + count := by
    rw [List.length_append, List.length_take, Nat.min_eq_left inside]
  constructor
  case segments =>
    rw [segments_cons, segments_transmitted, outbox.segments, outbox.fin_eq_nil unpublished]
    simp [TxEntry.segment]
  case contiguous =>
    rw [total, length]
    rw [start] at carries
    exact outbox.contiguous.append carries.contiguous
  case payloads =>
    rw [total, List.flatMap_append, outbox.payloads, carries.payloads]
    simp
  case single => exact Nat.zero_le 1
  case isFin => simp
  case published => simp
  case sndNxt =>
    rw [total, length]
    simp only [unpublished, start, BitVec.ofNat_add, ← BitVec.add_assoc]
    simp

/-- A `close` that publishes the FIN. -/
theorem finished {taken : List TxSegment} (unpublished : hasFinSent out.outFlags = false)
    (isFin : ∀ segment ∈ taken, IsFin out.sndNxt segment) (single : taken.length ≤ 1) (slot : Nat) :
    Outbox iss mss conn ⟨out.sndNxt + 1, out.outFlags ||| outFinSent ||| outReleased⟩
      ((taken.map (.sent slot)).reverse ++ sends) data taken := by
  have start : out.sndNxt =
      iss + 1 + BitVec.ofNat 32 (acceptedBytes conn sends).length := by
    have next := outbox.sndNxt
    rw [unpublished] at next
    simpa using next
  constructor
  case segments =>
    rw [segments_transmitted, outbox.segments, outbox.fin_eq_nil unpublished, List.append_nil]
  case single => exact single
  case published => simp
  all_goals rw [acceptedBytes_transmitted]
  case contiguous => exact outbox.contiguous
  case payloads => exact outbox.payloads
  case isFin =>
    rw [← start]
    exact isFin
  case sndNxt => simp [start]

theorem released :
    Outbox iss mss conn { out with outFlags := out.outFlags ||| outReleased } sends data fin where
  segments := outbox.segments
  contiguous := outbox.contiguous
  payloads := outbox.payloads
  single := outbox.single
  isFin := outbox.isFin
  published := by simpa using outbox.published
  sndNxt := by simpa using outbox.sndNxt

end

end Outbox

/-- The stream of the connection in a session. -/
def Session.HasOutbox (session : Session) : Prop :=
  ∃ data fin, Outbox session.conn.iss session.conn.sendMss.toNat session.connId session.out
    session.sends data fin

theorem SessionStep.hasOutbox {k : TcpStack} {session session' : Session} {action : Action}
    (step : SessionStep k session action session')
    (before : 0 < session.opens → session.HasOutbox) (opened : 0 < session'.opens) :
    session'.HasOutbox := by
  cases step with
  | idle => exact before opened
  | opened => exact ⟨[], [], .empty _ _ _⟩
  | @segment packet seg =>
      have continues := session.processSegment_continues seg k
      rw [Session.opens, continues.past] at opened
      obtain ⟨data, fin, outbox⟩ := before opened
      refine ⟨data, fin, ?_⟩
      have iss := congrArg TcpConnection.Identity.iss continues.identity
      have mss := congrArg TcpConnection.Identity.sendMss continues.identity
      have generation := congrArg TcpConnection.Identity.generation continues.identity
      simp only [TcpConnection.identity] at iss mss generation
      rw [Session.connId, continues.slot, continues.out, continues.sends, iss, mss, generation]
      exact outbox
  | freed => exact before opened
  | call wasOpened called =>
      obtain ⟨data, fin, outbox⟩ := before wasOpened
      cases called with
      | same => exact ⟨data, fin, outbox⟩
      | refused conn bytes => exact ⟨data, fin, outbox.refused conn bytes⟩
      | sent _ named sendable inside _ carries =>
          subst named
          exact ⟨_, _, outbox.sent sendable.finSent inside carries session.slot⟩
      | finished _ _ sendable isFin single =>
          exact ⟨_, _, outbox.finished sendable.finSent isFin single session.slot⟩
      | released => exact ⟨data, fin, outbox.released⟩
  | stray _ _ unopened => exact absurd unopened (Nat.ne_of_gt opened)

/-! ## Runs -/

/-- A connection that has sent its FIN sends nothing more. -/
structure Silent (n : Nat) (taken : List TxSegment) (session : Session) : Prop where
  known : n ≤ session.opens
  silent : session.opens = n →
    hasFinSent session.out.outFlags = true ∧ segments session.sends = taken

theorem Silent.step {k : TcpStack} {n : Nat} {taken : List TxSegment}
    {session session' : Session} {action : Action} (silent : Silent n taken session)
    (positive : 0 < n) (step : SessionStep k session action session') :
    Silent n taken session' := by
  rcases Nat.lt_or_eq_of_le silent.known with earlier | current
  · have later := (step.epoch earlier).2
    exact ⟨Nat.le_of_lt later, fun equal => by omega⟩
  · obtain ⟨finSent, same⟩ := silent.silent current.symm
    cases step with
    | idle => exact silent
    | opened =>
        refine ⟨Nat.le_succ_of_le silent.known, fun equal => ?_⟩
        rw [Session.openFor_opens] at equal
        omega
    | @segment packet seg =>
        have continues := session.processSegment_continues seg k
        have sameOpens : (session.processSegment k seg).opens = session.opens := by
          rw [Session.opens, continues.past, Session.opens]
        refine ⟨by omega, fun _ => ?_⟩
        rw [continues.out, continues.sends]
        exact ⟨finSent, same⟩
    | freed => exact ⟨silent.known, silent.silent⟩
    | call _ called =>
        cases called with
        | same => exact silent
        | refused => exact ⟨silent.known, fun _ => ⟨finSent, by simpa [TxEntry.segment] using same⟩⟩
        | sent _ _ sendable => rw [sendable.finSent] at finSent; cases finSent
        | finished _ _ sendable => rw [sendable.finSent] at finSent; cases finSent
        | released => exact ⟨silent.known, fun _ => ⟨by simpa using finSent, same⟩⟩
    | stray _ _ unopened => omega

/-- Outbound stream integrity.  In every state of every run, what the data queue has
taken for the connection in a slot is contiguous from `iss + 1` on and carries exactly
the bytes its `send` calls have accepted; `snd_nxt` is where these end, or one further
once the FIN is published, and the FIN has their end as its sequence number.  Once the
FIN is published the queue gets nothing more from the connection. -/
theorem outbound_stream_integrity {k : TcpStack} {state : State}
    (reachable : Reachable k state) (i : Nat) (opened : 0 < opens i state.memory.rx.log) :
    let c := state.memory.rx.slots i
    let sent := sends i state.memory.tx.log
    (∃ data fin, Outbox c.iss c.sendMss.toNat ⟨i, c.generation⟩ (state.memory.tx.slots i)
      sent data fin) ∧
    (hasFinSent (state.memory.tx.slots i).outFlags = true →
      ∀ later, Run k (fun _ _ => True) state later →
        opens i later.memory.rx.log = opens i state.memory.rx.log →
        segments (sends i later.memory.tx.log) = segments sent) := by
  intro c sent
  rw [← session_opens] at opened
  constructor
  · have held := Run.session i (fun session => 0 < session.opens → session.HasOutbox)
      reachable (Regular.initial k) (fun never => absurd never (Nat.lt_irrefl 0))
      fun _ _ _ _ before step => step.hasOutbox before
    exact held.2 opened
  · intro finSent later run same
    have silent := run.session i
      (Silent (state.memory.session i).opens (segments sent)) reachable.regular
      ⟨Nat.le_refl _, fun _ => ⟨finSent, rfl⟩⟩
      fun _ _ _ _ silent step => silent.step opened step
    rw [← session_opens, ← session_opens] at same
    exact (silent.2.silent same).2

/-- Three bytes, of which the queue takes none at first. -/
theorem outbound_stream_of_three_bytes :
    let call := fun take => Call.send ⟨0, 1⟩ [1, 2, 3] ⟨fun _ _ => true, fun _ => take⟩
    let tried := (((call 0).code singleSlot).run singleSlotAccepted.memory).2
    let mem := (((call 1).code singleSlot).run tried).2
    let c := mem.rx.slots 0
    acceptedBytes ⟨0, 1⟩ (sends 0 mem.tx.log) = [1, 2, 3] ∧
      ∃ data fin, Outbox c.iss c.sendMss.toNat ⟨0, c.generation⟩ (mem.tx.slots 0)
        (sends 0 mem.tx.log) data fin := by
  intro call tried mem c
  refine ⟨by decide, ?_⟩
  have first := singleSlotAccepted_reachable.step (.call (call 0)) trivial
  have second := first.step (.call (call 1)) trivial
  exact (outbound_stream_integrity second 0 (by decide)).1

end DpdkWrapper.Tcp
