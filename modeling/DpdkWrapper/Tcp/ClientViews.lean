import DpdkWrapper.Tcp.Outcomes

/-!
# Clients and calls

How what is held for a tuple follows from the slots and the logs, and what a call of the
application does to it: a call on an id of the client is a step of the client, and a call
on any other id leaves the client as it is.

A name is the number of an id among those that the client has been given.  The lemmas here
translate between names, ids and slots: the slot of a name that is present is the client's slot,
and every other name of the client has ended and leads nowhere.  Calls are then compared one by
one with the functions of `ClientConn`.
-/

namespace DpdkWrapper.Tcp

open Threads Wire

/-! ## Lists without repetition -/

section

variable {α β : Type} [DecidableEq α]

/-- A function that changes at one entry of a list. -/
theorem map_modify_idxOf {entries : List α} (nodup : entries.Nodup) {entry : α}
    {before after : α → β} {change : β → β} (here : after entry = change (before entry))
    (others : ∀ other ∈ entries, other ≠ entry → after other = before other) :
    (entries.map before).modify (entries.idxOf entry) change = entries.map after := by
  induction entries with
  | nil => rfl
  | cons head rest ih =>
      obtain ⟨new, nodup⟩ := List.nodup_cons.mp nodup
      by_cases first : head = entry
      · subst first
        have same : rest.map before = rest.map after := by
          refine List.map_congr_left fun other member => ?_
          have differs : other ≠ head := by
            rintro rfl
            exact new member
          exact (others other (List.mem_cons_of_mem _ member) differs).symm
        rw [List.idxOf_cons_self, List.map_cons, List.modify_zero_cons, List.map_cons, here, same]
      · rw [List.idxOf_cons_ne _ first, List.map_cons, List.modify_succ_cons, List.map_cons,
          others head List.mem_cons_self first,
          ih nodup fun other member => others other (List.mem_cons_of_mem _ member)]

/-- The place of a value that only one entry has. -/
theorem idxOf_map_of_unique [DecidableEq β] {entries : List α} {entry : α} {value : α → β}
    (unique : ∀ other ∈ entries, value other = value entry → other = entry) :
    (entries.map value).idxOf (value entry) = entries.idxOf entry := by
  induction entries with
  | nil => rfl
  | cons head rest ih =>
      by_cases first : head = entry
      · rw [first, List.map_cons, List.idxOf_cons_self, List.idxOf_cons_self]
      · have differs : value head ≠ value entry :=
          fun same => first (unique head List.mem_cons_self same)
        rw [List.map_cons, List.idxOf_cons_ne _ differs, List.idxOf_cons_ne _ first,
          ih fun other member => unique other (List.mem_cons_of_mem _ member)]

/-- A partial function that has a value at one entry of a list only. -/
theorem filterMap_of_single {entries : List α} (nodup : entries.Nodup) {entry : α}
    {value : α → Option β} (others : ∀ other ∈ entries, other ≠ entry → value other = none)
    (absent : entry ∉ entries → value entry = none) :
    entries.filterMap value = (value entry).toList := by
  induction entries with
  | nil =>
      rw [absent List.not_mem_nil]
      rfl
  | cons head rest ih =>
      obtain ⟨new, nodup⟩ := List.nodup_cons.mp nodup
      have later : ∀ other ∈ rest, other ≠ entry → value other = none := fun other member =>
        others other (List.mem_cons_of_mem _ member)
      by_cases first : head = entry
      · subst first
        have none : rest.filterMap value = [] := by
          rw [List.filterMap_eq_nil_iff]
          intro other member
          refine later other member ?_
          rintro rfl
          exact new member
        rw [List.filterMap_cons, none]
        cases value head <;> rfl
      · rw [List.filterMap_cons_none (others head List.mem_cons_self first)]
        refine ih nodup later fun absent' => absent ?_
        rw [List.mem_cons, not_or]
        exact ⟨Ne.symm first, absent'⟩

end

/-! ## Logs -/

namespace Tuple

variable {tuple : Tuple}

/-- Events of other clients give a client no name. -/
theorem names_of_foreign {added : List RxEntry}
    (foreign : ∀ event ∈ events added, tuple.ofEvent event = false) (log : List RxEntry) :
    tuple.names (added ++ log) = tuple.names log := by
  have none : tuple.names added = [] := by
    rw [names, List.map_eq_nil_iff, List.filter_eq_nil_iff]
    intro event member first
    rw [accepts, foreign event member, Bool.and_false] at first
    cases first
  rw [names_append, none, List.append_nil]

/-- Events about others are no notices. -/
theorem notices_of_foreign {added : List RxEntry}
    (foreign : ∀ event ∈ events added, tuple.ofEvent event = false) (log : List RxEntry) :
    tuple.notices (added ++ log) = tuple.notices log := by
  induction added with
  | nil => rfl
  | cons entry rest ih =>
      have earlier := ih fun event member => foreign event (by
        rw [events_cons]
        exact List.mem_append_left _ member)
      cases entry with
      | event pushed =>
          have other : tuple.ofEvent pushed = false := foreign pushed (by simp [RxEntry.pushed?])
          rw [List.cons_append, notices, other, if_neg Bool.false_ne_true, earlier]
      | _ => exact earlier

theorem repliesIn_append (first second : List Packet) :
    tuple.repliesIn (first ++ second) = tuple.repliesIn first ++ tuple.repliesIn second :=
  List.filterMap_append

theorem repliesIn_reverse (packets : List Packet) :
    tuple.repliesIn packets.reverse = (tuple.repliesIn packets).reverse :=
  List.filterMap_reverse

/-- Segments that all go to the client, or all do not. -/
theorem repliesIn_tcp {segments : List TxSegment} {own : Bool}
    (addressed : ∀ segment ∈ segments, tuple.ofReply segment = own) :
    tuple.repliesIn (segments.map .tcp) = if own then segments else [] := by
  rw [repliesIn, List.filterMap_map]
  cases own with
  | true =>
      rw [if_pos rfl]
      refine (List.filterMap_congr fun segment member => ?_).trans List.filterMap_some
      exact if_pos (addressed segment member)
  | false =>
      rw [if_neg Bool.false_ne_true, List.filterMap_eq_nil_iff]
      intro segment member
      exact if_neg (by simp [addressed segment member])

theorem sentIn_eq (log : List TxEntry) :
    tuple.sentIn log = (log.filterMap TxEntry.segment).filter tuple.ofReply := by
  induction log with
  | nil => rfl
  | cons entry rest ih =>
      rw [sentIn] at ih ⊢
      cases entry with
      | sent slot segment =>
          rw [List.filterMap_cons, List.filterMap_cons, ih, TxEntry.segment, List.filter_cons]
          dsimp only
          cases tuple.ofReply segment <;> rfl
      | _ => exact ih

end Tuple

/-! ## Slots -/

/-- A slot is the same to everybody who finds it. -/
structure SameSlot (mem mem' : Memory) (i : Nat) : Prop where
  conn : (mem'.rx.slots i).core = (mem.rx.slots i).core
  out : mem'.tx.slots i = mem.tx.slots i
  awaiting : i ∈ mem'.rx.awaitingRelease ↔ i ∈ mem.rx.awaitingRelease

namespace SameSlot

variable {k : TcpStack} {tuple : Tuple} {mem mem' : Memory} {i : Nat}

theorem of_session (same : mem'.session i = mem.session i)
    (awaiting : i ∈ mem'.rx.awaitingRelease ↔ i ∈ mem.rx.awaitingRelease) :
    SameSlot mem mem' i :=
  ⟨congrArg Session.conn same, congrArg Session.out same, awaiting⟩

section

variable (kept : SameSlot mem mem' i)
include kept

theorem state : (mem'.rx.slots i).state = (mem.rx.slots i).state := by
  have same := congrArg TcpConnection.state kept.conn
  exact same

theorem generation : (mem'.rx.slots i).generation = (mem.rx.slots i).generation := by
  have same := congrArg TcpConnection.generation kept.conn
  exact same

theorem ofConnection :
    tuple.ofConnection (mem'.rx.slots i) = tuple.ofConnection (mem.rx.slots i) := by
  have same := congrArg tuple.ofConnection kept.conn
  exact same

/-- A slot that is the same is the same client's. -/
theorem isSlot_iff : IsSlotOf k tuple mem' i ↔ IsSlotOf k tuple mem i := by
  constructor
  · rintro ⟨inside, live, unawaited, named⟩
    exact ⟨inside, kept.state ▸ live, fun listed => unawaited (kept.awaiting.mpr listed),
      kept.ofConnection ▸ named⟩
  · rintro ⟨inside, live, unawaited, named⟩
    exact ⟨inside, kept.state ▸ live, fun listed => unawaited (kept.awaiting.mp listed),
      kept.ofConnection ▸ named⟩

theorem link_eq : mem'.link i = { mem.link i with pending := (mem'.rx.slots i).ackPending } := by
  have bare : (mem'.rx.slots i).bare = (mem.rx.slots i).bare :=
    congrArg (fun c : TcpConnection => { c with generation := 0 }) kept.conn
  rw [Memory.link, Memory.link, bare, kept.out]

theorem link (pending : (mem'.rx.slots i).ackPending = (mem.rx.slots i).ackPending) :
    mem'.link i = mem.link i := by
  rw [kept.link_eq, pending]
  rfl

end

theorem status {conn : ConnId} (kept : SameSlot mem mem' conn.slot) :
    mem'.status conn = mem.status conn := by
  simp only [Memory.status, kept.generation, kept.state, kept.awaiting, kept.out]

end SameSlot

section

variable {k : TcpStack} {state : State} {tuple : Tuple} {conn : ConnId}

theorem client_link {mem : Memory} (accounts : Accounting k mem.rx) {i : Nat}
    (isSlot : IsSlotOf k tuple mem i) :
    (mem.client tuple).link = some (mem.link i) := by
  rw [Memory.client, (slotOf_eq_some accounts).mpr isSlot, Option.map_some]

theorem client_link_none {mem : Memory} (accounts : Accounting k mem.rx)
    (nowhere : ∀ i, ¬IsSlotOf k tuple mem i) : (mem.client tuple).link = none := by
  rw [Memory.client, (slotOf_eq_none accounts).mpr nowhere, Option.map_none]

theorem status_of_stale {mem : Memory}
    (stale : (mem.rx.slots conn.slot).generation ≠ conn.generation) :
    mem.status conn = .gone :=
  if_neg fun current => stale current.1

theorem status_of_free {mem : Memory} (free : (mem.rx.slots conn.slot).state = .free) :
    mem.status conn = .gone :=
  if_neg fun current => current.2 free

theorem status_of_awaiting {mem : Memory}
    (current : (mem.rx.slots conn.slot).generation = conn.generation)
    (live : (mem.rx.slots conn.slot).state ≠ .free)
    (listed : conn.slot ∈ mem.rx.awaitingRelease) :
    mem.status conn = .waiting (hasReleased (mem.tx.slots conn.slot).outFlags) :=
  (if_pos ⟨current, live⟩).trans (if_pos listed)

theorem status_of_present {mem : Memory}
    (current : (mem.rx.slots conn.slot).generation = conn.generation)
    (live : (mem.rx.slots conn.slot).state ≠ .free)
    (unlisted : conn.slot ∉ mem.rx.awaitingRelease) : mem.status conn = .present :=
  (if_pos ⟨current, live⟩).trans (if_neg unlisted)

/-- A connection is the present one if its slot still has its generation and is in use. -/
theorem status_eq_present_iff {mem : Memory} :
    mem.status conn = .present ↔
      (mem.rx.slots conn.slot).generation = conn.generation ∧
        (mem.rx.slots conn.slot).state ≠ .free ∧ conn.slot ∉ mem.rx.awaitingRelease := by
  constructor
  · intro present
    unfold Memory.status at present
    split at present
    · rename_i current
      split at present
      · cases present
      · rename_i unlisted
        exact ⟨current.1, current.2, unlisted⟩
    · cases present
  · rintro ⟨current, live, unlisted⟩
    exact status_of_present current live unlisted

/-- Two current ids of one slot are the same. -/
theorem eq_of_slot {mem : Memory} {other : ConnId} (slot : other.slot = conn.slot)
    (current : (mem.rx.slots conn.slot).generation = conn.generation)
    (current' : (mem.rx.slots other.slot).generation = other.generation) : other = conn := by
  obtain ⟨i, generation⟩ := conn
  obtain ⟨j, generation'⟩ := other
  dsimp only at slot current current'
  subst slot
  rw [← current, ← current']

variable (reachable : Reachable k state) (sparse : FewOpensEach state.memory)
include reachable sparse

/-- A name whose slot is in use leads to the client's slot. -/
theorem isSlot_of_names (given : conn ∈ tuple.names state.memory.rx.log)
    (current : (state.memory.rx.slots conn.slot).generation = conn.generation)
    (live : (state.memory.rx.slots conn.slot).state ≠ .free)
    (unlisted : conn.slot ∉ state.memory.rx.awaitingRelease) :
    IsSlotOf k tuple state.memory conn.slot :=
  ⟨names_inside reachable given, live, unlisted, (names_current reachable sparse given current).1⟩

/-- An id that another client has been given leads to no connection of this one. -/
theorem ofConnection_of_foreign {other : Tuple} (given : conn ∈ other.names state.memory.rx.log)
    (foreign : conn ∉ tuple.names state.memory.rx.log)
    (current : (state.memory.rx.slots conn.slot).generation = conn.generation) :
    tuple.ofConnection (state.memory.rx.slots conn.slot) = false := by
  obtain ⟨theirs, told⟩ := names_current reachable sparse given current
  by_contra mine
  rw [Bool.not_eq_false] at mine
  apply foreign
  have here : (state.memory.session conn.slot).connId = conn := by
    cases conn
    exact congrArg _ current
  rw [← here]
  exact (connId_mem_names_iff reachable sparse).mpr ⟨told, mine⟩

end

/-! ## Calls -/

namespace Issues

variable {k : TcpStack} {tuple : Tuple} {mem mem' : Memory} {slot : Nat}
  {out : OutboundFields} {segments : List TxSegment}

section

variable (issues : Issues slot out segments mem mem')
include issues

/-- Segments that a call hands over are the client's if they are addressed to it. -/
theorem sentIn {own : Bool} (addressed : ∀ segment ∈ segments, tuple.ofReply segment = own) :
    tuple.sentIn mem'.tx.log =
      (if own then segments.reverse else []) ++ tuple.sentIn mem.tx.log := by
  rw [Tuple.sentIn_eq, Tuple.sentIn_eq, issues.log, List.filter_append]
  congr 1
  cases own with
  | true =>
      rw [if_pos rfl, List.filter_eq_self]
      exact fun segment member => addressed segment (List.mem_reverse.mp member)
  | false =>
      rw [if_neg Bool.false_ne_true, List.filter_eq_nil_iff]
      exact fun segment member => by simp [addressed segment (List.mem_reverse.mp member)]

/-- A call is seen in three places. -/
theorem client {own : Bool} (addressed : ∀ segment ∈ segments, tuple.ofReply segment = own) :
    mem'.client tuple = { mem.client tuple with
      link := (mem.slotOf tuple).map mem'.link
      statuses := (tuple.names mem.rx.log).map mem'.status
      sent := (if own then segments.reverse else []) ++ tuple.sentIn mem.tx.log } := by
  rw [Memory.client, issues.sentIn addressed, Memory.slotOf, issues.rx]
  rfl

theorem kept {i : Nat} (other : i ≠ slot) : SameSlot mem mem' i :=
  ⟨by rw [issues.rx], issues.others other, by rw [issues.rx]⟩

theorem link_of_ne {i : Nat} (other : i ≠ slot) : mem'.link i = mem.link i :=
  (issues.kept other).link (by rw [issues.rx])

theorem link : mem'.link slot = { mem.link slot with out := out } := by
  rw [Memory.link, Memory.link, issues.here, issues.rx]

end

/-- A call that changes nothing. -/
theorem client_same (issues : Issues slot (mem.tx.slots slot) [] mem mem') :
    mem'.client tuple = mem.client tuple := by
  have kept : ∀ i, SameSlot mem mem' i := by
    intro i
    by_cases here : i = slot
    · subst here
      exact ⟨by rw [issues.rx], issues.here, by rw [issues.rx]⟩
    · exact issues.kept here
  have links : mem'.link = mem.link :=
    funext fun i => (kept i).link (by rw [issues.rx])
  have statuses : mem'.status = mem.status := funext fun conn => (kept conn.slot).status
  have addressed : ∀ segment ∈ ([] : List TxSegment), tuple.ofReply segment = false := by
    rintro _ ⟨⟩
  rw [issues.client addressed, links, statuses]
  rfl

end Issues

section

variable {k : TcpStack} {state : State} {tuple : Tuple} {conn : ConnId} {mem' : Memory}
  {out : OutboundFields} {segments : List TxSegment}

theorem getElem?_statuses {mem : Memory} (given : conn ∈ tuple.names mem.rx.log) :
    (mem.client tuple).statuses[(tuple.names mem.rx.log).idxOf conn]? =
      some (mem.status conn) := by
  rw [Memory.client, List.getElem?_map, List.getElem?_idxOf given]
  rfl

variable (reachable : Reachable k state) (sparse : FewOpensEach state.memory)
include reachable sparse

/-- A call on a connection of another client. -/
theorem Issues.client_of_foreign (issues : Issues conn.slot out segments state.memory mem')
    {other : Tuple} (given : conn ∈ other.names state.memory.rx.log)
    (foreign : conn ∉ tuple.names state.memory.rx.log)
    (current : (state.memory.rx.slots conn.slot).generation = conn.generation)
    (addressed : ∀ segment ∈ segments,
      segment.addr = replyAddr k (state.memory.rx.slots conn.slot)) :
    mem'.client tuple = state.memory.client tuple := by
  have accounts := reachable.inOrder.accounts
  have unnamed := ofConnection_of_foreign reachable sparse given foreign current
  have others : ∀ segment ∈ segments, tuple.ofReply segment = false := fun segment member =>
    (Tuple.ofReply_of_replyAddr (addressed segment member)).trans unnamed
  have link : (state.memory.slotOf tuple).map mem'.link =
      (state.memory.slotOf tuple).map state.memory.link := by
    refine Option.map_congr fun i slotOf => issues.link_of_ne ?_
    rintro rfl
    have named := ((slotOf_eq_some accounts).mp slotOf).named
    rw [unnamed] at named
    cases named
  have statuses : (tuple.names state.memory.rx.log).map mem'.status =
      (tuple.names state.memory.rx.log).map state.memory.status := by
    refine List.map_congr_left fun mine member => ?_
    by_cases slot : mine.slot = conn.slot
    · have stale : (state.memory.rx.slots mine.slot).generation ≠ mine.generation := by
        intro current'
        rw [eq_of_slot slot current current'] at member
        exact foreign member
      rw [status_of_stale stale, status_of_stale (by rwa [issues.rx])]
    · exact (issues.kept slot).status
  rw [issues.client others, link, statuses]
  rfl

/-- The tenures of a client after a call on one of its connections. -/
theorem Issues.statuses (issues : Issues conn.slot out segments state.memory mem')
    (current : (state.memory.rx.slots conn.slot).generation = conn.generation)
    {change : ConnStatus → ConnStatus}
    (here : mem'.status conn = change (state.memory.status conn)) :
    (tuple.names state.memory.rx.log).map mem'.status =
      (state.memory.client tuple).statuses.modify ((tuple.names state.memory.rx.log).idxOf conn)
        change := by
  refine (map_modify_idxOf (names_nodup reachable sparse) here fun other member differs => ?_).symm
  by_cases slot : other.slot = conn.slot
  · have stale : (state.memory.rx.slots other.slot).generation ≠ other.generation :=
      fun current' => differs (eq_of_slot slot current current')
    rw [status_of_stale stale, status_of_stale (by rwa [issues.rx])]
  · exact (issues.kept slot).status

/-- A call on the connection that the client's packets go to. -/
theorem Issues.client_of_present (issues : Issues conn.slot out segments state.memory mem')
    (given : conn ∈ tuple.names state.memory.rx.log)
    (current : (state.memory.rx.slots conn.slot).generation = conn.generation)
    (live : (state.memory.rx.slots conn.slot).state ≠ .free)
    (unlisted : conn.slot ∉ state.memory.rx.awaitingRelease)
    (addressed : ∀ segment ∈ segments,
      segment.addr = replyAddr k (state.memory.rx.slots conn.slot)) :
    mem'.client tuple = { state.memory.client tuple with
      link := some { state.memory.link conn.slot with out := out }
      sent := segments.reverse ++ (state.memory.client tuple).sent } := by
  have isSlot := isSlot_of_names reachable sparse given current live unlisted
  have mine : ∀ segment ∈ segments, tuple.ofReply segment = true := fun segment member =>
    (Tuple.ofReply_of_replyAddr (addressed segment member)).trans isSlot.named
  have present : mem'.status conn = id (state.memory.status conn) := by
    rw [id, status_of_present current live unlisted]
    exact status_of_present (by rwa [issues.rx]) (by rwa [issues.rx]) (by rwa [issues.rx])
  rw [issues.client mine, (slotOf_eq_some reachable.inOrder.accounts).mpr isSlot,
    Option.map_some, issues.link, issues.statuses reachable sparse current present,
    List.modify_id, if_pos rfl]
  rfl

end

namespace ClientConn

variable {k : TcpStack} {link : ClientConn}

theorem send_addr (bytes : List Byte) (env : SendEnv) :
    ∀ segment ∈ (link.send k bytes env).2, segment.addr = replyAddr k link.conn := by
  unfold ClientConn.send
  split
  · rintro _ ⟨⟩
  · exact sendRounds_addr (link.plan k bytes) env _ _ _

theorem close_addr (env : CloseEnv) :
    ∀ segment ∈ (link.close k env).2, segment.addr = replyAddr k link.conn := by
  unfold ClientConn.close
  split
  · rintro _ ⟨⟩
  · split
    · rintro _ ⟨⟩
    · intro segment member
      exact finTaken_addr _ _ _ env _ _ none (by rintro _ ⟨⟩) segment (Option.mem_toList.mp member)

theorem close_of_released (released : hasReleased link.out.outFlags = true) (env : CloseEnv) :
    link.close k env = (link.out, []) := by
  rw [ClientConn.close, if_pos released]

theorem close_of_terminated (terminated : link.conn.terminated = true) (env : CloseEnv) :
    hasReleased (link.close k env).1.outFlags = true ∧ (link.close k env).2 = [] := by
  unfold ClientConn.close
  split
  · rename_i released
    exact ⟨released, rfl⟩
  · rw [terminated, Bool.or_true, if_pos rfl]
    exact ⟨hasReleased_or_released _, rfl⟩

end ClientConn

section

variable {k : TcpStack} {state : State} {tuple : Tuple} {conn : ConnId}

theorem linkOf_of_gone {mem : Memory} (given : conn ∈ tuple.names mem.rx.log)
    (gone : mem.status conn ≠ .present) :
    (mem.client tuple).linkOf ((tuple.names mem.rx.log).idxOf conn) = none := by
  rw [Client.linkOf, getElem?_statuses given, if_neg]
  exact fun same => gone (Option.some.inj same)

variable (reachable : Reachable k state) (sparse : FewOpensEach state.memory)
include reachable sparse

/-- A name that is the present connection leads to the client's connection. -/
theorem linkOf_of_present (given : conn ∈ tuple.names state.memory.rx.log)
    (current : (state.memory.rx.slots conn.slot).generation = conn.generation)
    (live : (state.memory.rx.slots conn.slot).state ≠ .free)
    (unlisted : conn.slot ∉ state.memory.rx.awaitingRelease) :
    (state.memory.client tuple).linkOf ((tuple.names state.memory.rx.log).idxOf conn) =
      some (state.memory.link conn.slot) := by
  have isSlot := isSlot_of_names reachable sparse given current live unlisted
  rw [Client.linkOf, getElem?_statuses given, status_of_present current live unlisted, if_pos rfl,
    client_link reachable.inOrder.accounts isSlot]

/-- The connection of an id that is current and not found by packets has ended. -/
theorem released_of_free (given : conn ∈ tuple.names state.memory.rx.log)
    (current : (state.memory.rx.slots conn.slot).generation = conn.generation)
    (free : (state.memory.rx.slots conn.slot).state = .free) :
    hasReleased (state.memory.link conn.slot).out.outFlags = true :=
  (Ended.reachable reachable conn.slot).released free
    (names_current reachable sparse given current).2

omit sparse in
theorem terminated_of_awaiting (listed : conn.slot ∈ state.memory.rx.awaitingRelease) :
    (state.memory.link conn.slot).conn.terminated = true :=
  (Ended.reachable reachable conn.slot).terminated
    (reachable.inOrder.accounts.partitioned.awaiting conn.slot listed).2.1

/-- An id of the client leads to the connection that its packets go to, or to none that
can send. -/
theorem linkOf_own (given : conn ∈ tuple.names state.memory.rx.log) :
    let found := (state.memory.client tuple).linkOf ((tuple.names state.memory.rx.log).idxOf conn)
    (found = some (state.memory.link conn.slot) ∧ conn.Names k state.memory ∧
        (state.memory.rx.slots conn.slot).state ≠ .free ∧
        conn.slot ∉ state.memory.rx.awaitingRelease) ∨
      found = none ∧ canSend k conn state.memory = false := by
  intro found
  by_cases names : conn.Names k state.memory
  case neg =>
    have stale : (state.memory.rx.slots conn.slot).generation ≠ conn.generation :=
      fun current => names ⟨names_inside reachable given, current⟩
    refine Or.inr ⟨linkOf_of_gone given ?_, canSend_of_stale names⟩
    rw [status_of_stale stale]
    rintro ⟨⟩
  by_cases free : (state.memory.rx.slots conn.slot).state = .free
  · refine Or.inr ⟨linkOf_of_gone given (by rw [status_of_free free]; rintro ⟨⟩), ?_⟩
    rw [canSend_of_names names, ClientConn.sendable,
      released_of_free reachable sparse given names.current free]
    rfl
  · by_cases listed : conn.slot ∈ state.memory.rx.awaitingRelease
    · refine Or.inr ⟨linkOf_of_gone given ?_, ?_⟩
      · rw [status_of_awaiting names.current free listed]
        rintro ⟨⟩
      · rw [canSend_of_names names, ClientConn.sendable, terminated_of_awaiting reachable listed,
          Bool.not_true, Bool.and_false]
    · exact Or.inl
        ⟨linkOf_of_present reachable sparse given names.current free listed, names, free, listed⟩

/-- What calls on a connection of the client return is the client's own. -/
theorem returns_own (given : conn ∈ tuple.names state.memory.rx.log) :
    let client := state.memory.client tuple
    let number := (tuple.names state.memory.rx.log).idxOf conn
    ((sendable k conn).run state.memory).1 = client.sendable number ∧
      ((sendSpace k conn).run state.memory).1 = client.sendSpace number ∧
      ∀ bytes env, ((send k conn bytes env).run state.memory).1 =
        client.sendReturns k number bytes env := by
  intro client number
  obtain ⟨_, ready, _⟩ := run_sendable k conn state.memory
  obtain ⟨_, space, _⟩ := run_sendSpace k conn state.memory
  rw [ready, space, Client.sendable, Client.sendSpace]
  rcases linkOf_own reachable sparse given with ⟨found, names, _⟩ | ⟨found, unready⟩
  · rw [found, canSend_of_names names]
    refine ⟨rfl, rfl, fun bytes env => ?_⟩
    rw [Client.sendReturns, found]
    exact (send_issues names bytes env).1
  · rw [found, unready]
    refine ⟨rfl, rfl, fun bytes env => ?_⟩
    rw [Client.sendReturns, found]
    exact (send_refused unready bytes env).1

/-- `send` on another client's connection is nothing to a client. -/
theorem send_client_foreign (bytes : List Byte) (env : SendEnv) {other : Tuple}
    (given : conn ∈ other.names state.memory.rx.log)
    (foreign : conn ∉ tuple.names state.memory.rx.log) :
    ((send k conn bytes env).run state.memory).2.client tuple = state.memory.client tuple := by
  by_cases current : (state.memory.rx.slots conn.slot).generation = conn.generation
  · have names : conn.Names k state.memory := ⟨names_inside reachable given, current⟩
    obtain ⟨_, issues⟩ := send_issues names bytes env
    exact issues.client_of_foreign reachable sparse given foreign current
      ((state.memory.link conn.slot).send_addr bytes env)
  · have unready := canSend_of_stale fun names : conn.Names k state.memory => current names.current
    exact (send_refused unready bytes env).2.client_same

/-- `close` on another client's connection is nothing to a client. -/
theorem close_client_foreign (env : CloseEnv) {other : Tuple}
    (given : conn ∈ other.names state.memory.rx.log)
    (foreign : conn ∉ tuple.names state.memory.rx.log) :
    ((close k conn env).run state.memory).2.client tuple = state.memory.client tuple := by
  by_cases current : (state.memory.rx.slots conn.slot).generation = conn.generation
  · have names : conn.Names k state.memory := ⟨names_inside reachable given, current⟩
    exact (close_issues names env).client_of_foreign reachable sparse given foreign current
      ((state.memory.link conn.slot).close_addr env)
  · have missed := not_found_of_stale fun names : conn.Names k state.memory => current names.current
    exact (close_stale missed env).client_same

/-- A `send` on a connection of the client is its own. -/
theorem send_client_own (bytes : List Byte) (env : SendEnv)
    (given : conn ∈ tuple.names state.memory.rx.log) :
    ((send k conn bytes env).run state.memory).2.client tuple =
      (state.memory.client tuple).send k ((tuple.names state.memory.rx.log).idxOf conn) bytes
        env := by
  rcases linkOf_own reachable sparse given with ⟨found, names, live, unlisted⟩ | ⟨gone, unready⟩
  · obtain ⟨_, issues⟩ := send_issues names bytes env
    rw [Client.send, found,
      issues.client_of_present reachable sparse given names.current live unlisted
        ((state.memory.link conn.slot).send_addr bytes env)]
  · rw [Client.send, gone]
    exact (send_refused unready bytes env).2.client_same

/-- A connection that is gone cannot be closed again. -/
theorem close_of_gone (env : CloseEnv) (given : conn ∈ tuple.names state.memory.rx.log)
    (gone : state.memory.status conn = .gone) :
    (state.memory.client tuple).close k ((tuple.names state.memory.rx.log).idxOf conn) env =
      state.memory.client tuple := by
  have same : (state.memory.client tuple).statuses.modify
      ((tuple.names state.memory.rx.log).idxOf conn) ConnStatus.release =
        (state.memory.client tuple).statuses := by
    refine map_modify_idxOf (names_nodup reachable sparse) ?_ fun _ _ _ => rfl
    rw [gone]
    rfl
  rw [Client.close, linkOf_of_gone given (by rw [gone]; rintro ⟨⟩)]
  dsimp only
  rw [same]

/-- A `close` on a connection of the client is its own. -/
theorem close_client_own (env : CloseEnv) (given : conn ∈ tuple.names state.memory.rx.log) :
    ((close k conn env).run state.memory).2.client tuple =
      (state.memory.client tuple).close k ((tuple.names state.memory.rx.log).idxOf conn) env := by
  by_cases current : (state.memory.rx.slots conn.slot).generation = conn.generation
  case neg =>
    have missed := not_found_of_stale fun names : conn.Names k state.memory => current names.current
    rw [close_of_gone reachable sparse env given (status_of_stale current)]
    exact (close_stale missed env).client_same
  have names : conn.Names k state.memory := ⟨names_inside reachable given, current⟩
  have issues := close_issues names env
  by_cases free : (state.memory.rx.slots conn.slot).state = .free
  · have released := released_of_free reachable sparse given current free
    rw [ClientConn.close_of_released released] at issues
    rw [close_of_gone reachable sparse env given (status_of_free free)]
    exact issues.client_same
  by_cases listed : conn.slot ∈ state.memory.rx.awaitingRelease
  case neg =>
    rw [Client.close, linkOf_of_present reachable sparse given current free listed,
      issues.client_of_present reachable sparse given current free listed
        ((state.memory.link conn.slot).close_addr env)]
  -- the connection has ended: nothing is sent, and the mark is seen by `reap_released` only
  have ended : ((state.memory.link conn.slot).close k env).2 = [] ∧ _ :=
    (ClientConn.close_of_terminated (terminated_of_awaiting reachable listed) env).symm
  obtain ⟨silent, released⟩ := ended
  have waits := status_of_awaiting current free listed
  generalize ((close k conn env).run state.memory).2 = mem' at issues ⊢
  have waits' : mem'.status conn = .waiting true := by
    rw [status_of_awaiting (by rwa [issues.rx]) (by rwa [issues.rx]) (by rwa [issues.rx]),
      issues.here, released]
  have release : mem'.status conn = ConnStatus.release (state.memory.status conn) := by
    rw [waits', waits, ConnStatus.release]
  have link : (state.memory.slotOf tuple).map mem'.link =
      (state.memory.slotOf tuple).map state.memory.link := by
    refine Option.map_congr fun i slotOf => issues.link_of_ne ?_
    rintro rfl
    exact ((slotOf_eq_some reachable.inOrder.accounts).mp slotOf).unawaited listed
  have addressed : ∀ segment ∈ ((state.memory.link conn.slot).close k env).2,
      tuple.ofReply segment = false := by
    rw [silent]
    rintro _ ⟨⟩
  rw [issues.client addressed, Client.close,
    linkOf_of_gone given (by rw [waits]; rintro ⟨⟩), link,
    issues.statuses reachable sparse current release]
  rfl

/-- What a call of the application is to a client. -/
theorem call_client (call : Call) {other : Tuple}
    (given : call.conn ∈ other.names state.memory.rx.log) :
    ((call.code k).run state.memory).2.client tuple =
      (state.memory.client tuple).react k ((Action.call call).input? k tuple state.memory) := by
  cases call with
  | sendable conn =>
      obtain ⟨tx, runs, unsent⟩ := run_sendable k conn state.memory
      rw [Call.code, Program.run_bind', runs]
      exact (Issues.of_unsent conn.slot unsent).client_same
  | sendSpace conn =>
      obtain ⟨tx, runs, unsent⟩ := run_sendSpace k conn state.memory
      rw [Call.code, Program.run_bind', runs]
      exact (Issues.of_unsent conn.slot unsent).client_same
  | send conn bytes env =>
      rw [Call.code, Program.run_bind']
      by_cases mine : conn ∈ tuple.names state.memory.rx.log
      · rw [Action.input?, if_pos mine]
        exact send_client_own reachable sparse bytes env mine
      · rw [Action.input?, if_neg mine]
        exact send_client_foreign reachable sparse bytes env given mine
  | close conn env =>
      by_cases mine : conn ∈ tuple.names state.memory.rx.log
      · rw [Action.input?, if_pos mine]
        exact close_client_own reachable sparse env mine
      · rw [Action.input?, if_neg mine]
        exact close_client_foreign reachable sparse env given mine

end

end DpdkWrapper.Tcp
