import DpdkWrapper.Tcp.ClientViews

/-!
# The start and the end of a poll

`reap_released`, `flush_acks`, `flush_control` and `finalize` go through lists that all
clients share.  What they do to one client is what the client's own functions say: its
connections that the application has released give up their slots, its ACK is sent, and
its connection ends if it is closed.

The lists are without repetition, and each client has at most one connection on them, so a
filter of the list by the client's tuple leaves at most one entry.  That the flushes have room
for all of it was proved with the fixed-capacity buffers.
-/

namespace DpdkWrapper.Tcp

open Threads Wire

/-- The application is told nothing. -/
def NoNewEvents (mem mem' : Memory) : Prop :=
  ∃ added, mem'.rx.log = added ++ mem.rx.log ∧ events added = []

namespace NoNewEvents

variable {tuple : Tuple} {first second third : Memory}

theorem of_log (log : second.rx.log = first.rx.log) : NoNewEvents first second :=
  ⟨[], log, rfl⟩

theorem refl (mem : Memory) : NoNewEvents mem mem :=
  of_log rfl

/-- Steps that tell the application nothing, one after the other. -/
theorem trans (left : NoNewEvents first second) (right : NoNewEvents second third) :
    NoNewEvents first third := by
  obtain ⟨older, log, none⟩ := left
  obtain ⟨newer, log', none'⟩ := right
  refine ⟨newer ++ older, by rw [log', log, List.append_assoc], ?_⟩
  rw [events_append, none, none']
  rfl

theorem names (noEvents : NoNewEvents first second) :
    tuple.names second.rx.log = tuple.names first.rx.log := by
  obtain ⟨added, log, none⟩ := noEvents
  rw [log]
  refine Tuple.names_of_foreign ?_ _
  rw [none]
  rintro _ ⟨⟩

theorem notices (noEvents : NoNewEvents first second) :
    tuple.notices second.rx.log = tuple.notices first.rx.log := by
  obtain ⟨added, log, none⟩ := noEvents
  rw [log]
  refine Tuple.notices_of_foreign ?_ _
  rw [none]
  rintro _ ⟨⟩

end NoNewEvents

/-- Reaping and finalizing tell the application nothing. -/
theorem Settles.noEvents {mem mem' : Memory} (settles : Settles mem mem') :
    NoNewEvents mem mem' := by
  obtain ⟨count, log⟩ := settles.log
  refine ⟨_, log, ?_⟩
  rw [events, List.reverse_replicate, List.filterMap_replicate_of_none rfl]

/-! ## The start of a poll -/

section

variable {k : TcpStack} {mem : Memory} {tuple : Tuple}

/-- A slot is reaped: it was waiting for its release, and has got it. -/
structure Reaps (mem mem' : Memory) (i : Nat) : Prop where
  listed : i ∈ mem.rx.awaitingRelease
  released : hasReleased (mem.tx.slots i).outFlags = true
  free : (mem'.rx.slots i).state = .free

/-- What the beginning of a poll may free. -/
theorem beginPoll_frees (mem : Memory) :
    Frees mem.rx.awaitingRelease mem (beginPoll.run mem).2 := by
  have frees := reapLoop_frees (mem.rx.awaitingRelease.length + 1) 0
    ⟨{ mem.rx with events := [] }, mem.tx⟩
  exact ⟨frees.tx, frees.session⟩

/-- Every slot is reaped or stays as it is. -/
theorem beginPoll_slot (reachable : Reachable k ⟨.idle, mem⟩) (i : Nat) :
    SameSlot mem (beginPoll.run mem).2 i ∧
        (i ∈ mem.rx.awaitingRelease → hasReleased (mem.tx.slots i).outFlags = false) ∨
      Reaps mem (beginPoll.run mem).2 i := by
  have begun : Reachable k ⟨.polling 0, (beginPoll.run mem).2⟩ :=
    Run.step reachable (.task .beginPoll rfl) trivial
  have accounts : Accounting k mem.rx := reachable.inOrder.accounts
  have accounts' : Accounting k (beginPoll.run mem).2.rx := begun.inOrder.accounts
  have reaped := beginPoll_reaps mem
  have frees := beginPoll_frees mem
  generalize (beginPoll.run mem).2 = mem' at begun accounts' reaped frees ⊢
  rcases frees.session i with same | ⟨listed, released, freed⟩
  · refine Or.inl ?_
    rcases reaped.slots i with kept | free
    · have summary : mem'.rx.summary i = mem.rx.summary i :=
        congrArg TcpConnection.summary kept
      have awaiting : i ∈ mem'.rx.awaitingRelease ↔ i ∈ mem.rx.awaitingRelease := by
        rw [accounts'.awaiting.mem_iff, accounts.awaiting.mem_iff, summary]
      refine ⟨.of_session same awaiting, fun listed => ?_⟩
      have held := reaped.held i (awaiting.mpr listed)
      rwa [reaped.tx] at held
    · have free' : (mem.rx.slots i).state = .free := by
        rw [← session_state, ← same]
        exact free
      have unlisted : i ∉ mem.rx.awaitingRelease := fun listed => by
        have closed := (accounts.partitioned.awaiting i listed).2.1
        rw [free'] at closed
        cases closed
      have unlisted' : i ∉ mem'.rx.awaitingRelease := fun listed => by
        have closed := (accounts'.partitioned.awaiting i listed).2.1
        rw [free] at closed
        cases closed
      exact ⟨.of_session same (iff_of_false unlisted' unlisted),
        fun listed => absurd listed unlisted⟩
  · have free := congrArg (·.conn.state) freed
    exact Or.inr ⟨listed, released, free⟩

theorem Reaps.not_isSlot {mem' : Memory} {i : Nat} (reaps : Reaps mem mem' i) :
    ¬IsSlotOf k tuple mem i ∧ ¬IsSlotOf k tuple mem' i :=
  ⟨fun isSlot => isSlot.unawaited reaps.listed, fun isSlot => isSlot.live reaps.free⟩

/-- The beginning of a poll reaps what the application has released. -/
theorem beginPoll_status (reachable : Reachable k ⟨.idle, mem⟩) (conn : ConnId) :
    (beginPoll.run mem).2.status conn = (mem.status conn).reap := by
  rcases beginPoll_slot reachable conn.slot with ⟨kept, unreleased⟩ | reaps
  · rw [kept.status, Memory.status]
    split
    · split
      · rename_i listed
        rw [unreleased listed]
        rfl
      · rfl
    · rfl
  · rw [status_of_free reaps.free, Memory.status, if_pos reaps.listed, reaps.released]
    split <;> rfl

/-- The start of a poll. -/
theorem beginPoll_client (reachable : Reachable k ⟨.idle, mem⟩) :
    (beginPoll.run mem).2.client tuple = (mem.client tuple).beginPoll := by
  have begun : Reachable k ⟨.polling 0, (beginPoll.run mem).2⟩ :=
    Run.step reachable (.task .beginPoll rfl) trivial
  have noEvents := (beginPoll_settles mem).noEvents
  have slotOf : (beginPoll.run mem).2.slotOf tuple = mem.slotOf tuple := by
    refine slotOf_congr reachable.inOrder.accounts begun.inOrder.accounts fun i => ?_
    rcases beginPoll_slot reachable i with ⟨kept, _⟩ | reaps
    · exact kept.isSlot_iff
    · exact iff_of_false reaps.not_isSlot.2 reaps.not_isSlot.1
  have link : (mem.slotOf tuple).map (beginPoll.run mem).2.link =
      (mem.slotOf tuple).map mem.link := by
    refine Option.map_congr fun i found => ?_
    have isSlot := (slotOf_eq_some reachable.inOrder.accounts).mp found
    rcases beginPoll_slot reachable i with ⟨kept, _⟩ | reaps
    · have idle := reachable.coalesced.idle rfl i
      exact kept.link (((beginPoll_settles mem).idle i idle).trans idle.symm)
    · exact absurd isSlot reaps.not_isSlot.1
  have statuses : (tuple.names mem.rx.log).map (beginPoll.run mem).2.status =
      ((tuple.names mem.rx.log).map mem.status).map ConnStatus.reap := by
    rw [List.map_map]
    exact List.map_congr_left fun conn _ => beginPoll_status reachable conn
  have control : (beginPoll.run mem).2.rx.control = mem.rx.control := by
    rw [begun.loaded.2.nothing.1, reachable.loaded.1]
  rw [Client.beginPoll, Memory.client, slotOf, link, noEvents.names, statuses, noEvents.notices,
    control, beginPoll_emitted, (beginPoll_reaps mem).tx]
  rfl

/-! ## The end of a poll -/

/-- `finalize` lets a slot wait only if it has not been released. -/
theorem finalizeSlot_awaiting (idx : Nat) (mem : Memory) :
    ∀ i ∈ ((finalizeSlot idx).run mem).2.rx.awaitingRelease,
      i ∈ mem.rx.awaitingRelease ∨ hasReleased (mem.tx.slots i).outFlags = false := by
  have erased : ∀ rx : Receiver, (rx.eraseFlow idx).awaitingRelease = rx.awaitingRelease := by
    intro rx
    unfold Receiver.eraseFlow
    split <;> rfl
  rw [finalizeSlot, run_inbound_bind, run_loadOutFlags_bind]
  intro i member
  split at member
  · refine Or.inl ?_
    have same : ((mem.rx.updateSlot idx fun c => { c with finalizePending := false }).eraseFlow
        idx).awaitingRelease = mem.rx.awaitingRelease := erased _
    rw [← same]
    exact member
  · rename_i held
    rcases List.mem_append.mp member with before | new
    · rw [erased] at before
      exact Or.inl before
    · cases List.mem_singleton.mp new
      exact Or.inr (Bool.eq_false_iff.mpr held)

/-- What is finalized waits for its release only if it has not been released before. -/
theorem finalize_awaiting (mem : Memory) :
    ∀ i ∈ (finalize.run mem).2.rx.awaitingRelease,
      i ∈ mem.rx.awaitingRelease ∨ hasReleased (mem.tx.slots i).outFlags = false := by
  have loop : ∀ (entries : List Nat) (mem : Memory),
      ∀ i ∈ ((Program.forEach finalizeSlot entries).run mem).2.rx.awaitingRelease,
        i ∈ mem.rx.awaitingRelease ∨ hasReleased (mem.tx.slots i).outFlags = false := by
    intro entries
    induction entries with
    | nil => exact fun _ _ member => Or.inl member
    | cons idx rest ih =>
        intro mem i member
        rw [Program.run_forEach_cons] at member
        rcases ih _ i member with before | held
        · exact finalizeSlot_awaiting idx mem i before
        · rw [(finalizeSlot_frees idx mem).tx] at held
          exact Or.inr held
  rw [finalize, run_viewRx_bind, Program.run_bind', run_inbound]
  exact loop mem.rx.finalizeList mem

/-- A connection ends: it is closed, and its slot still has its flow entry. -/
structure Ends (k : TcpStack) (mem : Memory) (i : Nat) : Prop where
  inside : i < k.maxConnections
  closed : (mem.rx.slots i).state = .closed
  unlisted : i ∉ mem.rx.awaitingRelease

/-- The slot of a connection that ends is free or waits, as the application has released
the connection or not. -/
structure Leaves (mem mem' : Memory) (i : Nat) : Prop where
  generation : (mem'.rx.slots i).generation = (mem.rx.slots i).generation
  out : mem'.tx.slots i = mem.tx.slots i
  free : hasReleased (mem.tx.slots i).outFlags = true → (mem'.rx.slots i).state = .free
  waits : hasReleased (mem.tx.slots i).outFlags = false →
    (mem'.rx.slots i).state = .closed ∧ i ∈ mem'.rx.awaitingRelease

/-- The memory that `finalize` starts from. -/
def flushedMemory (k : TcpStack) (env : FlushEnv) (mem : Memory) : Memory :=
  ⟨flushControl env.controlTake ((flushAcks k env.ackPool).run mem).2.rx,
    ((flushAcks k env.ackPool).run mem).2.tx⟩

/-- The end of a poll flushes first and finalizes then. -/
theorem run_endPoll (env : FlushEnv) (mem : Memory) :
    ((endPoll k env).run mem).2 = (finalize.run (flushedMemory k env mem)).2 := by
  rw [endPoll, Program.run_bind', run_inbound_bind, flushedMemory]

/-- What the end of a poll may free. -/
theorem endPoll_frees (env : FlushEnv) (mem : Memory) :
    Frees mem.rx.finalizeList mem ((endPoll k env).run mem).2 := by
  have acked : Frees mem.rx.finalizeList mem ((flushAcks k env.ackPool).run mem).2 :=
    (flushAcks_frees k env.ackPool mem).mono (by rintro _ ⟨⟩)
  have flushed : Frees mem.rx.finalizeList mem (flushedMemory k env mem) :=
    acked.trans (.of_unseen (.flushControl _ env.controlTake))
  have ends : (flushedMemory k env mem).rx.finalizeList = mem.rx.finalizeList :=
    flushAcks_sameEnds env.ackPool
  have finalized := finalize_frees (flushedMemory k env mem)
  rw [ends] at finalized
  rw [run_endPoll]
  exact flushed.trans finalized

theorem events_controlSent (packets : List Packet) :
    events (packets.map RxEntry.controlSent).reverse = [] := by
  rw [events, List.reverse_reverse, List.filterMap_map, List.filterMap_eq_nil_iff]
  exact fun _ _ => rfl

theorem flushControl_noEvents (mem : Memory) (controlTake : Nat) :
    NoNewEvents mem ⟨flushControl controlTake mem.rx, mem.tx⟩ :=
  ⟨_, rfl, events_controlSent _⟩

section

variable {count : Nat} (reachable : Reachable k ⟨.polling count, mem⟩) (env : FlushEnv)
include reachable

theorem endPoll_awaiting :
    ∀ i ∈ ((endPoll k env).run mem).2.rx.awaitingRelease,
      i ∈ mem.rx.awaitingRelease ∨ hasReleased (mem.tx.slots i).outFlags = false := by
  obtain ⟨_, _, others⟩ := @flushAcks_flushed k env.ackPool mem reachable.coalesced.owing
    reachable.loaded.room
  have awaiting : (flushedMemory k env mem).rx.awaitingRelease = mem.rx.awaitingRelease := by
    rw [flushedMemory, others]
    rfl
  have tx : (flushedMemory k env mem).tx = mem.tx := by rw [flushedMemory, others]
  have finalized := finalize_awaiting (flushedMemory k env mem)
  rw [awaiting, tx] at finalized
  rw [run_endPoll]
  exact finalized

/-- The end of a poll tells the application nothing. -/
theorem endPoll_noEvents : NoNewEvents mem ((endPoll k env).run mem).2 := by
  obtain ⟨_, _, others⟩ := @flushAcks_flushed k env.ackPool mem reachable.coalesced.owing
    reachable.loaded.room
  have log : ((flushAcks k env.ackPool).run mem).2.rx.log = mem.rx.log := by rw [others]
  rw [run_endPoll]
  exact ((NoNewEvents.of_log log).trans (flushControl_noEvents _ env.controlTake)).trans
    (finalize_settles _).noEvents

/-- Every slot that is closed leaves the flow table; every other slot stays as it is. -/
theorem endPoll_slot (i : Nat) :
    SameSlot mem ((endPoll k env).run mem).2 i ∧ ¬Ends k mem i ∨
      Ends k mem i ∧ Leaves mem ((endPoll k env).run mem).2 i := by
  have finished : Reachable k ⟨.idle, ((endPoll k env).run mem).2⟩ :=
    Run.step reachable (.task (.endPoll env) rfl) trivial
  have accounts : Accounting k mem.rx := reachable.inOrder.accounts
  have accounts' : Accounting k ((endPoll k env).run mem).2.rx := finished.inOrder.accounts
  have frees : Frees mem.rx.finalizeList mem ((endPoll k env).run mem).2 :=
    endPoll_frees env mem
  have held := endPoll_awaiting reachable env
  have none := finalizeList_endPoll k env mem
  generalize ((endPoll k env).run mem).2 = mem' at accounts' frees held none ⊢
  have awaits (inside : i < k.maxConnections) (closed : (mem'.rx.slots i).state = .closed) :
      i ∈ mem'.rx.awaitingRelease := by
    refine (accounts'.awaiting.mem_iff i).mpr ⟨inside, ?_⟩
    refine (mem'.rx.slots i).place_eq_awaiting_iff.mpr ⟨closed, ?_⟩
    by_contra pending
    have scheduled := (accounts'.finalizing.mem_iff i).mpr ⟨inside,
      (mem'.rx.slots i).place_eq_finalizing_iff.mpr ⟨closed, Bool.not_eq_false _ ▸ pending⟩⟩
    rw [none] at scheduled
    cases scheduled
  rcases frees.session i with same | ⟨scheduled, released, freed⟩
  · have state : (mem'.rx.slots i).state = (mem.rx.slots i).state :=
      congrArg (·.conn.state) same
    by_cases listed : i ∈ mem.rx.awaitingRelease
    · obtain ⟨inside, closed, _⟩ := accounts.partitioned.awaiting i listed
      have listed' := awaits inside (state.trans closed)
      exact Or.inl ⟨.of_session same (iff_of_true listed' listed), fun ends => ends.unlisted listed⟩
    · by_cases ends : Ends k mem i
      · have listed' := awaits ends.inside (state.trans ends.closed)
        have unreleased := (held i listed').resolve_left listed
        refine Or.inr ⟨ends, congrArg (·.conn.generation) same, congrArg (·.out) same, ?_, ?_⟩
        · intro released
          rw [unreleased] at released
          cases released
        · exact fun _ => ⟨state.trans ends.closed, listed'⟩
      · have unlisted' : i ∉ mem'.rx.awaitingRelease := by
          intro listed'
          obtain ⟨inside, closed, _⟩ := accounts'.partitioned.awaiting i listed'
          exact ends ⟨inside, state.symm.trans closed, listed⟩
        exact Or.inl ⟨.of_session same (iff_of_false unlisted' listed), ends⟩
  · obtain ⟨inside, place⟩ := (accounts.finalizing.mem_iff i).mp scheduled
    have closed := ((mem.rx.slots i).place_eq_finalizing_iff.mp place).1
    have unlisted : i ∉ mem.rx.awaitingRelease := by
      intro listed
      have awaiting := ((accounts.awaiting.mem_iff i).mp listed).2
      rw [place] at awaiting
      cases awaiting
    refine Or.inr ⟨⟨inside, closed, unlisted⟩, congrArg (·.conn.generation) freed,
      congrArg (·.out) freed, fun _ => congrArg (·.conn.state) freed, ?_⟩
    intro unreleased
    rw [released] at unreleased
    cases unreleased

/-- The connections that end are no longer found. -/
theorem endPoll_isSlot (i : Nat) :
    IsSlotOf k tuple ((endPoll k env).run mem).2 i ↔
      IsSlotOf k tuple mem i ∧ (mem.rx.slots i).state ≠ .closed := by
  rcases endPoll_slot reachable env i with ⟨kept, going⟩ | ⟨ends, leaves⟩
  · rw [kept.isSlot_iff]
    refine ⟨fun isSlot => ⟨isSlot, fun closed => ?_⟩, And.left⟩
    exact going ⟨isSlot.inside, closed, isSlot.unawaited⟩
  · refine iff_of_false (fun isSlot => ?_) fun still => still.2 ends.closed
    cases released : hasReleased (mem.tx.slots i).outFlags with
    | true => exact isSlot.live (leaves.free released)
    | false => exact isSlot.unawaited (leaves.waits released).2

omit reachable in
theorem Ends.isSlot {i : Nat} (ends : Ends k mem i)
    (named : tuple.ofConnection (mem.rx.slots i) = true) : IsSlotOf k tuple mem i where
  inside := ends.inside
  live := by
    rw [ends.closed]
    rintro ⟨⟩
  unawaited := ends.unlisted
  named := named

/-- A connection that does not end keeps its status. -/
theorem endPoll_status_same {conn : ConnId}
    (going : (mem.rx.slots conn.slot).generation = conn.generation →
      ¬Ends k mem conn.slot) :
    ((endPoll k env).run mem).2.status conn = mem.status conn := by
  rcases endPoll_slot reachable env conn.slot with ⟨kept, _⟩ | ⟨ends, leaves⟩
  · exact kept.status
  · have stale : (mem.rx.slots conn.slot).generation ≠ conn.generation :=
      fun current => going current ends
    rw [status_of_stale stale, status_of_stale (by rwa [leaves.generation])]

/-- A connection that ends is gone or waits, as the application has released it or not. -/
theorem endPoll_status_ended {conn : ConnId} (ends : Ends k mem conn.slot)
    (current : (mem.rx.slots conn.slot).generation = conn.generation) :
    ((endPoll k env).run mem).2.status conn =
      (mem.status conn).finalize (hasReleased (mem.tx.slots conn.slot).outFlags) := by
  have live : (mem.rx.slots conn.slot).state ≠ .free := by
    rw [ends.closed]
    rintro ⟨⟩
  rcases endPoll_slot reachable env conn.slot with ⟨_, going⟩ | ⟨_, leaves⟩
  · exact absurd ends going
  · rw [status_of_present current live ends.unlisted, ConnStatus.finalize]
    cases released : hasReleased (mem.tx.slots conn.slot).outFlags with
    | true => exact status_of_free (leaves.free released)
    | false =>
        obtain ⟨closed, listed⟩ := leaves.waits released
        rw [status_of_awaiting (leaves.generation.trans current) (by rw [closed]; rintro ⟨⟩) listed,
          leaves.out, released]
        rfl

end

/-! ## The ACK of a client -/

/-- The ACK that is due to a client for a slot. -/
def dueAck (k : TcpStack) (tuple : Tuple) (mem : Memory) (i : Nat) : Option TxSegment :=
  if (mem.rx.slots i).ackPending && tuple.ofConnection (mem.rx.slots i) then
    (mem.link i).ack k
  else
    none

section

variable {count : Nat} (reachable : Reachable k ⟨.polling count, mem⟩) {env : FlushEnv}
  (unfailing : env.Unfailing)
include reachable unfailing

omit reachable in
/-- Of the ACKs that are due, a client gets its own. -/
theorem repliesIn_pureAcks_eq :
    tuple.repliesIn (((pureAcks k env.ackPool mem).map Prod.snd).map .tcp) =
      mem.rx.ackList.filterMap (dueAck k tuple mem) := by
  have listed : mem.rx.ackList.zipIdx.map Prod.fst = mem.rx.ackList :=
    List.zipIdx_map_fst 0 mem.rx.ackList
  rw [pureAcks_map_snd, Tuple.repliesIn, List.filterMap_map, List.filterMap_filterMap]
  conv_rhs => rw [← listed, List.filterMap_map]
  refine List.filterMap_congr fun entry _ => ?_
  have ack : pureAck k env.ackPool mem entry =
      if (mem.rx.slots entry.1).ackPending then (mem.link entry.1).ack k else none := by
    rw [pureAck, unfailing.pool]
    rfl
  rw [ack, Function.comp_apply, dueAck]
  cases (mem.rx.slots entry.1).ackPending with
  | false => rfl
  | true =>
      rw [if_pos rfl, Bool.true_and]
      cases built : (mem.link entry.1).ack k with
      | none => split <;> rfl
      | some segment =>
          have addressed : segment.addr = replyAddr k (mem.rx.slots entry.1) :=
            congrArg TxSegment.addr (buildSegment_eq_some built)
          have own : tuple.ofReply segment = tuple.ofConnection (mem.rx.slots entry.1) :=
            Tuple.ofReply_of_replyAddr addressed
          rw [← own]
          rfl

/-- Of the ACKs that `flush_acks` queues, the client gets its own. -/
theorem repliesIn_pureAcks :
    tuple.repliesIn (((pureAcks k env.ackPool mem).map Prod.snd).map .tcp) =
      (mem.client tuple).acks k := by
  have owing := reachable.coalesced.owing
  have accounts : Accounting k mem.rx := reachable.inOrder.accounts
  have mine : ∀ i, dueAck k tuple mem i ≠ none → IsSlotOf k tuple mem i := by
    intro i some
    have condition : ((mem.rx.slots i).ackPending &&
        tuple.ofConnection (mem.rx.slots i)) = true := by
      by_contra unset
      exact some (if_neg unset)
    obtain ⟨pending, named⟩ := Bool.and_eq_true_iff.mp condition
    obtain ⟨inside, unawaited⟩ := reachable.attended pending
    have accepted := owing.accepted i (owing.listed i pending)
    exact ⟨inside, (TcpState.accepted_iff.mp accepted).1, unawaited, named⟩
  rw [repliesIn_pureAcks_eq unfailing, Client.acks]
  by_cases nowhere : ∀ i, ¬IsSlotOf k tuple mem i
  · rw [client_link_none accounts nowhere, List.filterMap_eq_nil_iff]
    intro i _
    by_contra some
    exact nowhere i (mine i some)
  · obtain ⟨idx, isSlot⟩ := not_forall_not.mp nowhere
    have single : mem.rx.ackList.filterMap (dueAck k tuple mem) =
        (dueAck k tuple mem idx).toList := by
      refine filterMap_of_single owing.nodup ?_ ?_
      · intro other _ differs
        by_contra some
        exact differs ((mine other some).unique isSlot accounts)
      · intro absent
        refine if_neg fun condition => absent (owing.listed idx ?_)
        exact (Bool.and_eq_true_iff.mp condition).1
    rw [single, client_link accounts isSlot, dueAck, isSlot.named, Bool.and_true]
    change _ = if (mem.rx.slots idx).ackPending then _ else _
    cases (mem.rx.slots idx).ackPending <;> rfl

omit reachable unfailing in
theorem Client.finalize_others (client : Client) :
    client.finalize.notices = client.notices ∧ client.finalize.sent = client.sent := by
  unfold Client.finalize
  split
  · split <;> exact ⟨rfl, rfl⟩
  · exact ⟨rfl, rfl⟩

omit unfailing in
/-- Connections that end leave the flow table, and keep their slots until the application
has released them. -/
theorem endPoll_finalizes (tuple : Tuple) (env : FlushEnv) (sparse : FewOpensEach mem) :
    (((endPoll k env).run mem).2.slotOf tuple).map ((endPoll k env).run mem).2.link =
        (mem.client tuple).finalize.link ∧
      (tuple.names mem.rx.log).map ((endPoll k env).run mem).2.status =
        (mem.client tuple).finalize.statuses := by
  have finished : Reachable k ⟨.idle, ((endPoll k env).run mem).2⟩ :=
    Run.step reachable (.task (.endPoll env) rfl) trivial
  have accounts : Accounting k mem.rx := reachable.inOrder.accounts
  have accounts' : Accounting k ((endPoll k env).run mem).2.rx := finished.inOrder.accounts
  -- ids of this client whose slots leave the flow table lead to its own connection
  have leaving : ∀ conn ∈ tuple.names mem.rx.log,
      (mem.rx.slots conn.slot).generation = conn.generation → Ends k mem conn.slot →
        IsSlotOf k tuple mem conn.slot := fun conn given current ends =>
    ends.isSlot (names_current reachable sparse given current).1
  have statuses (going : ∀ i, IsSlotOf k tuple mem i → (mem.rx.slots i).state ≠ .closed) :
      (tuple.names mem.rx.log).map ((endPoll k env).run mem).2.status =
        (mem.client tuple).statuses := by
    refine List.map_congr_left fun conn given => endPoll_status_same reachable env ?_
    exact fun current ends => going conn.slot (leaving conn given current ends) ends.closed
  by_cases nowhere : ∀ i, ¬IsSlotOf k tuple mem i
  · have nowhere' : ∀ i, ¬IsSlotOf k tuple ((endPoll k env).run mem).2 i :=
      fun i isSlot => nowhere i ((endPoll_isSlot reachable env i).mp isSlot).1
    rw [Client.finalize, client_link_none accounts nowhere,
      (slotOf_eq_none accounts').mpr nowhere']
    refine ⟨?_, statuses fun i isSlot => absurd isSlot (nowhere i)⟩
    rw [client_link_none accounts nowhere]
    rfl
  obtain ⟨idx, isSlot⟩ := not_forall_not.mp nowhere
  by_cases closed : (mem.link idx).conn.state = .closed
  · have nowhere' : ∀ i, ¬IsSlotOf k tuple ((endPoll k env).run mem).2 i := by
      intro i isSlot'
      obtain ⟨before, still⟩ := (endPoll_isSlot reachable env i).mp isSlot'
      rw [before.unique isSlot accounts] at still
      exact still closed
    rw [Client.finalize, client_link accounts isSlot, (slotOf_eq_none accounts').mpr nowhere']
    dsimp only
    rw [if_pos closed]
    refine ⟨rfl, ?_⟩
    have after : ∀ conn ∈ tuple.names mem.rx.log,
        ((endPoll k env).run mem).2.status conn =
          (mem.status conn).finalize (hasReleased (mem.link idx).out.outFlags) := by
      intro conn given
      by_cases ended : (mem.rx.slots conn.slot).generation = conn.generation ∧
          Ends k mem conn.slot
      · have here := (leaving conn given ended.1 ended.2).unique isSlot accounts
        rw [endPoll_status_ended reachable env ended.2 ended.1, here]
        rfl
      · rw [endPoll_status_same reachable env fun current ends => ended ⟨current, ends⟩]
        cases status : mem.status conn with
        | present =>
            obtain ⟨current, live, unlisted⟩ := status_eq_present_iff.mp status
            have here := isSlot_of_names reachable sparse given current live unlisted
            have same := here.unique isSlot accounts
            refine absurd ⟨current, here.inside, ?_, unlisted⟩ ended
            rw [same]
            exact closed
        | _ => rfl
    rw [Memory.client, List.map_map]
    exact List.map_congr_left after
  · have isSlot' := (endPoll_isSlot reachable env idx).mpr ⟨isSlot, closed⟩
    rw [Client.finalize, client_link accounts isSlot, (slotOf_eq_some accounts').mpr isSlot']
    dsimp only
    rw [if_neg closed]
    constructor
    · rcases endPoll_slot reachable env idx with ⟨kept, _⟩ | ⟨ends, _⟩
      · have idle := endPoll_acknowledges (k := k) reachable.coalesced.owing reachable.loaded.room
          env idx
        rw [Option.map_some, kept.link_eq, idle]
      · exact absurd ends.closed closed
    · refine statuses fun i before => ?_
      rw [before.unique isSlot accounts]
      exact closed

/-- The end of a poll. -/
theorem endPoll_client (sparse : FewOpensEach mem) :
    ((endPoll k env).run mem).2.client tuple = (mem.client tuple).endPoll k := by
  have noEvents := endPoll_noEvents reachable env
  have emits := endPoll_emits (k := k) reachable.coalesced.owing reachable.loaded.room env
    unfailing.queue
  have emitted : tuple.repliesIn (emitted ((endPoll k env).run mem).2.rx.log) =
      (tuple.repliesIn mem.rx.control ++ (mem.client tuple).acks k).reverse ++
        tuple.repliesIn (emitted mem.rx.log) := by
    rw [emits, Tuple.repliesIn_append, Tuple.repliesIn_reverse, flushed, Tuple.repliesIn_append,
      repliesIn_pureAcks reachable unfailing]
  have control : tuple.repliesIn ((endPoll k env).run mem).2.rx.control = [] := by
    rw [(endPoll_replies k mem env).2]
    rfl
  have sent : ((endPoll k env).run mem).2.tx = mem.tx := (endPoll_frees env mem).tx
  obtain ⟨link, statuses⟩ := endPoll_finalizes reachable tuple env sparse
  obtain ⟨sameNotices, sameSent⟩ := Client.finalize_others (mem.client tuple)
  rw [Memory.client, noEvents.names, noEvents.notices, control, emitted, sent, link, statuses,
    Client.endPoll, sameNotices, sameSent]
  rfl

end

end

end DpdkWrapper.Tcp
