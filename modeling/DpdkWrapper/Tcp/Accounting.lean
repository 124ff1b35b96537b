import DpdkWrapper.Tcp.Receiver

/-!
# Slot accounting

Every slot is free, or awaits its release, or is entered in the flow table under
its own tuple; a terminal connection is in addition scheduled for `finalize`
until it has been finalized.  `ListsAgree` states this about the lists, the flow
table and the `SlotSummary` of each slot, and has one lemma for each way a slot
moves.  `Accounting` states it about a receiver.

A slot that is on two lists, or on none, would be reused while it is in use or lost
for good.  That this does not happen is behind almost every later result: the entry
of the flow table that a segment finds belongs to one connection only.
-/

namespace DpdkWrapper.Tcp

open Wire

/-- Where a slot is. -/
inductive SlotPlace where
  | free
  | live
  | finalizing
  | awaiting
  deriving DecidableEq

/-- What the slot accounting depends on in a connection. -/
structure SlotSummary where
  free : Bool
  closed : Bool
  finalizePending : Bool
  key : BitVec 64

namespace SlotSummary

def place (summary : SlotSummary) : SlotPlace :=
  if summary.free then .free
  else if summary.closed then
    if summary.finalizePending then .finalizing else .awaiting
  else .live

/-- Whether a slot has a flow entry. -/
def InFlow (summary : SlotSummary) : Prop :=
  summary.place = .live ∨ summary.place = .finalizing

end SlotSummary

def TcpConnection.summary (c : TcpConnection) : SlotSummary where
  free := decide (c.state = .free)
  closed := decide (c.state = .closed)
  finalizePending := c.finalizePending
  key := FlowTable.key c.peerIp c.peerPort c.localPort

/-! ## Lists, flow table and slots -/

/-- The list holds each slot that is in this place once. -/
structure Lists (count : Nat) (summary : Nat → SlotSummary) (place : SlotPlace)
    (entries : List Nat) : Prop where
  nodup : entries.Nodup
  mem_iff : ∀ i, i ∈ entries ↔ i < count ∧ (summary i).place = place

/-- The flow table maps the key of each slot that has an entry to the slot. -/
def FlowsTo (count : Nat) (summary : Nat → SlotSummary) (flows : FlowTable) : Prop :=
  ∃ map, FlowTable.Refines flows count map ∧
    ∀ key i, map.lookup key = some i ↔ i < count ∧ (summary i).InFlow ∧ (summary i).key = key

/-- Lists, flow table and slots agree. -/
structure ListsAgree (count : Nat) (free awaiting finalizing : List Nat) (flows : FlowTable)
    (summary : Nat → SlotSummary) : Prop where
  free : Lists count summary .free free
  awaiting : Lists count summary .awaiting awaiting
  finalizing : Lists count summary .finalizing finalizing
  settled : ∀ i < count, (summary i).finalizePending = true → (summary i).place = .finalizing
  named : ∀ i < count, (summary i).place ≠ .free → (summary i).key ≠ 0
  flows : FlowsTo count summary flows

namespace Lists

variable {count idx : Nat} {summary : Nat → SlotSummary} {place : SlotPlace} {entries : List Nat}
  {entry : SlotSummary}

/-- A move between two other places. -/
theorem other (lists : Lists count summary place entries)
    (before : (summary idx).place ≠ place) (after : entry.place ≠ place) :
    Lists count (Function.update summary idx entry) place entries where
  nodup := lists.nodup
  mem_iff i := by
    rw [lists.mem_iff]
    by_cases same : i = idx
    · subst same
      simp [before, after]
    · simp [same]

theorem notMem (lists : Lists count summary place entries)
    (elsewhere : (summary idx).place ≠ place) : idx ∉ entries := fun member =>
  elsewhere ((lists.mem_iff idx).mp member).2

/-- A slot arrives and is put in front. -/
theorem cons (lists : Lists count summary place entries) (inside : idx < count)
    (before : (summary idx).place ≠ place) (after : entry.place = place) :
    Lists count (Function.update summary idx entry) place (idx :: entries) where
  nodup := List.nodup_cons.mpr ⟨lists.notMem before, lists.nodup⟩
  mem_iff i := by
    rw [List.mem_cons, lists.mem_iff]
    by_cases same : i = idx
    · subst same
      simp [inside, after]
    · simp [same]

/-- A slot leaves; what remains is the rest of the list in any order. -/
theorem leave {rest : List Nat} (lists : Lists count summary place entries)
    (taken : entries.Perm (idx :: rest)) (after : entry.place ≠ place) :
    Lists count (Function.update summary idx entry) place rest := by
  have nodup := taken.nodup_iff.mp lists.nodup
  rw [List.nodup_cons] at nodup
  refine ⟨nodup.2, ?_⟩
  intro i
  by_cases same : i = idx
  · subst same
    simp [nodup.1, after]
  · have member : i ∈ entries ↔ i ∈ rest := by simp [taken.mem_iff, same]
    rw [← member, lists.mem_iff]
    simp [same]

theorem perm {others : List Nat} (lists : Lists count summary place entries)
    (same : entries.Perm others) : Lists count summary place others where
  nodup := same.nodup_iff.mp lists.nodup
  mem_iff i := by rw [← same.mem_iff, lists.mem_iff]

theorem concat (lists : Lists count summary place entries) (inside : idx < count)
    (before : (summary idx).place ≠ place) (after : entry.place = place) :
    Lists count (Function.update summary idx entry) place (entries ++ [idx]) :=
  (lists.cons inside before after).perm (List.perm_append_singleton idx entries).symm

end Lists

namespace FlowsTo

variable {count idx : Nat} {summary : Nat → SlotSummary} {flows : FlowTable} {entry : SlotSummary}

/-- There is at most one entry for each slot. -/
theorem card_le {map : FlowTable.Map}
    (entries : ∀ key i, map.lookup key = some i ↔
      i < count ∧ (summary i).InFlow ∧ (summary i).key = key) : map.keys.card ≤ count := by
  have covered : map.keys ⊆ (Finset.range count).image fun i => (summary i).key := by
    intro key member
    obtain ⟨i, found⟩ := Finmap.mem_iff.mp (Finmap.mem_keys.mp member)
    obtain ⟨inside, _, named⟩ := (entries key i).mp found
    exact Finset.mem_image.mpr ⟨i, Finset.mem_range.mpr inside, named⟩
  calc
    map.keys.card ≤ ((Finset.range count).image fun i => (summary i).key).card :=
      Finset.card_le_card covered
    _ ≤ (Finset.range count).card := Finset.card_image_le
    _ = count := Finset.card_range count

/-- A move that does not concern the flow table. -/
theorem other (flowsTo : FlowsTo count summary flows)
    (sameFlow : entry.InFlow ↔ (summary idx).InFlow) (sameKey : entry.key = (summary idx).key) :
    FlowsTo count (Function.update summary idx entry) flows := by
  obtain ⟨map, refines, entries⟩ := flowsTo
  refine ⟨map, refines, ?_⟩
  intro key i
  rw [entries]
  by_cases same : i = idx
  · subst same
    simp [sameFlow, sameKey]
  · simp [same]

/-- `find` returns the slot with the key, or `npos` if there is none. -/
theorem find (flowsTo : FlowsTo count summary flows) (small : count ≤ FlowTable.npos)
    {key : BitVec 64} (proper : key ≠ 0) :
    (∃ idx, flows.find key = some idx ∧ idx ≠ FlowTable.npos ∧ idx < count ∧
      (summary idx).InFlow ∧ (summary idx).key = key) ∨
    (flows.find key = some FlowTable.npos ∧
      ∀ i < count, (summary i).InFlow → (summary i).key ≠ key) := by
  obtain ⟨map, refines, entries⟩ := flowsTo
  have result := refines.find (card_le entries) proper
  cases found : map.lookup key with
  | some idx =>
      obtain ⟨inside, inFlow, named⟩ := (entries key idx).mp found
      left
      exact ⟨idx, by rw [result, found]; rfl, Nat.ne_of_lt (Nat.lt_of_lt_of_le inside small),
        inside, inFlow, named⟩
  | none =>
      right
      refine ⟨by rw [result, found]; rfl, ?_⟩
      intro i inside inFlow named
      have present := (entries key i).mpr ⟨inside, inFlow, named⟩
      rw [found] at present
      cases present

/-- A slot without an entry gets one, under a key that nobody has. -/
theorem insert (flowsTo : FlowsTo count summary flows) (inside : idx < count)
    (before : ¬ (summary idx).InFlow) (after : entry.InFlow) (proper : entry.key ≠ 0)
    (fresh : ∀ i < count, (summary i).InFlow → (summary i).key ≠ entry.key) :
    ∃ inserted, flows.insert entry.key idx = some inserted ∧
      FlowsTo count (Function.update summary idx entry) inserted := by
  obtain ⟨map, refines, entries⟩ := flowsTo
  obtain ⟨inserted, success, refinesAfter⟩ :=
    refines.insert (card_le entries) proper idx
  refine ⟨inserted, success, map.insert entry.key idx, refinesAfter, ?_⟩
  intro key i
  by_cases sameKey : key = entry.key
  · subst sameKey
    rw [Finmap.lookup_insert, Option.some.injEq]
    by_cases same : i = idx
    · subst same
      simp [inside, after]
    · simp only [ne_eq, same, not_false_eq_true, Function.update_of_ne, Ne.symm same,
        false_iff, not_and]
      exact fresh i
  · rw [Finmap.lookup_insert_of_ne _ sameKey, entries]
    by_cases same : i = idx
    · subst same
      simp [before, Ne.symm sameKey]
    · simp [same]

/-- A slot's entry is removed. -/
theorem erase (flowsTo : FlowsTo count summary flows) (inside : idx < count)
    (before : (summary idx).InFlow) (after : ¬ entry.InFlow) (proper : (summary idx).key ≠ 0) :
    ∃ erased, flows.erase (summary idx).key = some erased ∧
      FlowsTo count (Function.update summary idx entry) erased := by
  obtain ⟨map, refines, entries⟩ := flowsTo
  obtain ⟨erased, success, refinesAfter⟩ := refines.erase (card_le entries) proper
  refine ⟨erased, success, map.erase (summary idx).key, refinesAfter, ?_⟩
  have own := (entries (summary idx).key idx).mpr ⟨inside, before, rfl⟩
  intro key i
  by_cases sameKey : key = (summary idx).key
  · subst sameKey
    rw [Finmap.lookup_erase]
    by_cases same : i = idx
    · subst same
      simp [after]
    · simp only [reduceCtorEq, ne_eq, same, not_false_eq_true, Function.update_of_ne,
        false_iff]
      intro other
      have twice := (entries (summary idx).key i).mpr other
      rw [own] at twice
      exact same (Option.some.inj twice).symm
  · rw [Finmap.lookup_erase_ne sameKey, entries]
    by_cases same : i = idx
    · subst same
      simp [after, Ne.symm sameKey]
    · simp [same]

end FlowsTo

namespace ListsAgree

variable {count idx : Nat} {free awaiting finalizing : List Nat} {flows : FlowTable}
  {summary : Nat → SlotSummary} {entry : SlotSummary}

theorem not_inFlow_of_free {summary : SlotSummary} (free : summary.place = .free) :
    ¬ summary.InFlow := by
  simp [SlotSummary.InFlow, free]

theorem not_inFlow_of_awaiting {summary : SlotSummary} (awaiting : summary.place = .awaiting) :
    ¬ summary.InFlow := by
  simp [SlotSummary.InFlow, awaiting]

/-- Whatever happens to one slot, the other slots stay as settled as they were. -/
theorem settled_update (agree : ListsAgree count free awaiting finalizing flows summary)
    (proper : entry.finalizePending = true → entry.place = .finalizing) :
    ∀ i < count, (Function.update summary idx entry i).finalizePending = true →
      (Function.update summary idx entry i).place = .finalizing := by
  intro i inside
  by_cases same : i = idx
  · subst same
    simpa using proper
  · simpa [same] using agree.settled i inside

theorem named_update (agree : ListsAgree count free awaiting finalizing flows summary)
    (proper : entry.place ≠ .free → entry.key ≠ 0) :
    ∀ i < count, (Function.update summary idx entry i).place ≠ .free →
      (Function.update summary idx entry i).key ≠ 0 := by
  intro i inside
  by_cases same : i = idx
  · subst same
    simpa using proper
  · simpa [same] using agree.named i inside

/-- `open`: the first free slot gets a connection and a flow entry. -/
theorem openFree (agree : ListsAgree count (idx :: free) awaiting finalizing flows summary)
    (entry : SlotSummary)
    (after : entry.place = .live) (settled : entry.finalizePending = false)
    (proper : entry.key ≠ 0)
    (fresh : ∀ i < count, (summary i).InFlow → (summary i).key ≠ entry.key) :
    ∃ inserted, flows.insert entry.key idx = some inserted ∧
      ListsAgree count free awaiting finalizing inserted (Function.update summary idx entry) := by
  obtain ⟨inside, before⟩ := (agree.free.mem_iff idx).mp List.mem_cons_self
  obtain ⟨inserted, success, flowsTo⟩ := agree.flows.insert inside
    (not_inFlow_of_free before) (Or.inl after) proper fresh
  refine ⟨inserted, success, ?_⟩
  constructor
  case free => exact agree.free.leave (List.Perm.refl _) (by simp [after])
  case awaiting => exact agree.awaiting.other (by simp [before]) (by simp [after])
  case finalizing => exact agree.finalizing.other (by simp [before]) (by simp [after])
  case settled => exact agree.settled_update (by simp [settled])
  case named => exact agree.named_update fun _ => proper
  case flows => exact flowsTo

/-- A handshake is aborted: the slot loses its flow entry and is free. -/
theorem abort (agree : ListsAgree count free awaiting finalizing flows summary)
    (entry : SlotSummary)
    (inside : idx < count) (before : (summary idx).place = .live)
    (after : entry.place = .free) (settled : entry.finalizePending = false) :
    ∃ erased, flows.erase (summary idx).key = some erased ∧
      ListsAgree count (idx :: free) awaiting finalizing erased
        (Function.update summary idx entry) := by
  obtain ⟨erased, success, flowsTo⟩ := agree.flows.erase inside (Or.inl before)
    (not_inFlow_of_free after) (agree.named idx inside (by simp [before]))
  refine ⟨erased, success, ?_⟩
  constructor
  case free => exact agree.free.cons inside (by simp [before]) after
  case awaiting => exact agree.awaiting.other (by simp [before]) (by simp [after])
  case finalizing => exact agree.finalizing.other (by simp [before]) (by simp [after])
  case settled => exact agree.settled_update (by simp [settled])
  case named => exact agree.named_update fun used => absurd after used
  case flows => exact flowsTo

/-- `terminate`: a live connection is scheduled for `finalize`. -/
theorem schedule (agree : ListsAgree count free awaiting finalizing flows summary)
    (entry : SlotSummary)
    (inside : idx < count) (before : (summary idx).place = .live)
    (after : entry.place = .finalizing) (sameKey : entry.key = (summary idx).key) :
    ListsAgree count free awaiting (finalizing ++ [idx]) flows
      (Function.update summary idx entry) := by
  constructor
  case free => exact agree.free.other (by simp [before]) (by simp [after])
  case awaiting => exact agree.awaiting.other (by simp [before]) (by simp [after])
  case finalizing => exact agree.finalizing.concat inside (by simp [before]) after
  case settled => exact agree.settled_update fun _ => after
  case named =>
    exact agree.named_update fun _ => sameKey ▸ agree.named idx inside (by simp [before])
  case flows => exact agree.flows.other (by simp [SlotSummary.InFlow, before, after]) sameKey

/-- `finalize` of a connection that the application has released. -/
theorem finalizeReleased (agree : ListsAgree count free awaiting (idx :: finalizing) flows summary)
    (entry : SlotSummary)
    (after : entry.place = .free) (settled : entry.finalizePending = false) :
    ∃ erased, flows.erase (summary idx).key = some erased ∧
      ListsAgree count (idx :: free) awaiting finalizing erased
        (Function.update summary idx entry) := by
  obtain ⟨inside, before⟩ := (agree.finalizing.mem_iff idx).mp List.mem_cons_self
  obtain ⟨erased, success, flowsTo⟩ := agree.flows.erase inside (Or.inr before)
    (not_inFlow_of_free after) (agree.named idx inside (by simp [before]))
  refine ⟨erased, success, ?_⟩
  constructor
  case free => exact agree.free.cons inside (by simp [before]) after
  case awaiting => exact agree.awaiting.other (by simp [before]) (by simp [after])
  case finalizing => exact agree.finalizing.leave (List.Perm.refl _) (by simp [after])
  case settled => exact agree.settled_update (by simp [settled])
  case named => exact agree.named_update fun used => absurd after used
  case flows => exact flowsTo

/-- `finalize` of a connection that the application still holds. -/
theorem finalizeHeld (agree : ListsAgree count free awaiting (idx :: finalizing) flows summary)
    (entry : SlotSummary)
    (after : entry.place = .awaiting) (settled : entry.finalizePending = false)
    (sameKey : entry.key = (summary idx).key) :
    ∃ erased, flows.erase (summary idx).key = some erased ∧
      ListsAgree count free (awaiting ++ [idx]) finalizing erased
        (Function.update summary idx entry) := by
  obtain ⟨inside, before⟩ := (agree.finalizing.mem_iff idx).mp List.mem_cons_self
  have proper := agree.named idx inside (by simp [before])
  obtain ⟨erased, success, flowsTo⟩ := agree.flows.erase inside (Or.inr before)
    (not_inFlow_of_awaiting after) proper
  refine ⟨erased, success, ?_⟩
  constructor
  case free => exact agree.free.other (by simp [before]) (by simp [after])
  case awaiting => exact agree.awaiting.concat inside (by simp [before]) after
  case finalizing => exact agree.finalizing.leave (List.Perm.refl _) (by simp [after])
  case settled => exact agree.settled_update (by simp [settled])
  case named => exact agree.named_update fun _ => sameKey ▸ proper
  case flows => exact flowsTo

/-- `reap_released`: a slot that awaited its release is free. -/
theorem reap (agree : ListsAgree count free awaiting finalizing flows summary)
    (entry : SlotSummary)
    {rest : List Nat} (taken : awaiting.Perm (idx :: rest))
    (after : entry.place = .free) (settled : entry.finalizePending = false)
    (sameKey : entry.key = (summary idx).key) :
    ListsAgree count (idx :: free) rest finalizing flows (Function.update summary idx entry) := by
  obtain ⟨inside, before⟩ := (agree.awaiting.mem_iff idx).mp
    (taken.mem_iff.mpr List.mem_cons_self)
  constructor
  case free => exact agree.free.cons inside (by simp [before]) after
  case awaiting => exact agree.awaiting.leave taken (by simp [after])
  case finalizing => exact agree.finalizing.other (by simp [before]) (by simp [after])
  case settled => exact agree.settled_update (by simp [settled])
  case named => exact agree.named_update fun used => absurd after used
  case flows => exact agree.flows.other (by simp [SlotSummary.InFlow, before, after]) sameKey

end ListsAgree

/-! ## The lists of a receiver -/

/-- The summaries of all slots. -/
def Receiver.summary (rx : Receiver) : Nat → SlotSummary := fun i => (rx.slots i).summary

/-- The receiver's lists, flow table and slots agree. -/
def Accounting (k : TcpStack) (rx : Receiver) : Prop :=
  ListsAgree k.maxConnections rx.freeSlots rx.awaitingRelease rx.finalizeList rx.flows rx.summary

namespace Receiver

variable (rx : Receiver) (idx : Nat)

@[simp]
theorem summary_updateSlot (change : TcpConnection → TcpConnection) :
    (rx.updateSlot idx change).summary =
      Function.update rx.summary idx (change (rx.slots idx)).summary := by
  funext i
  by_cases same : i = idx
  · subst same
    simp [summary]
  · simp [summary, same]

@[simp]
theorem summary_count (counter : Counter) : (rx.count counter).summary = rx.summary := rfl

@[simp]
theorem summary_note (entry : RxEntry) : (rx.note entry).summary = rx.summary := rfl

@[simp]
theorem summary_pushEvent (type : TcpEventType) (data : List Byte) :
    (rx.pushEvent type idx data).summary = rx.summary := rfl

/-- A connection that is not scheduled yet is put at the end of the list. -/
theorem scheduleFinalize_finalizeList (unscheduled : (rx.slots idx).finalizePending = false) :
    (rx.scheduleFinalize idx).finalizeList = rx.finalizeList ++ [idx] := by
  simp [scheduleFinalize, unscheduled]

theorem summary_scheduleFinalize :
    (rx.scheduleFinalize idx).summary =
      Function.update rx.summary idx { (rx.slots idx).summary with finalizePending := true } := by
  funext i
  by_cases same : i = idx
  · subst same
    simp [summary, TcpConnection.summary]
  · simp [summary, same]

theorem summary_releaseSlot :
    (rx.releaseSlot idx).summary =
      Function.update rx.summary idx
        { (rx.slots idx).summary with
          free := true, closed := false, finalizePending := false } := by
  funext i
  by_cases same : i = idx
  · subst same
    simp [summary, TcpConnection.summary]
  · simp [summary, same]

end Receiver

theorem TcpConnection.place_eq_free_iff (c : TcpConnection) :
    c.summary.place = .free ↔ c.state = .free := by
  cases state : c.state <;> cases pending : c.finalizePending <;>
    simp [TcpConnection.summary, SlotSummary.place, state, pending]

theorem TcpConnection.place_eq_live_iff (c : TcpConnection) :
    c.summary.place = .live ↔ c.state ≠ .free ∧ c.state ≠ .closed := by
  cases state : c.state <;> cases pending : c.finalizePending <;>
    simp [TcpConnection.summary, SlotSummary.place, state, pending]

theorem TcpConnection.place_eq_finalizing_iff (c : TcpConnection) :
    c.summary.place = .finalizing ↔ c.state = .closed ∧ c.finalizePending = true := by
  cases state : c.state <;> cases pending : c.finalizePending <;>
    simp [TcpConnection.summary, SlotSummary.place, state, pending]

theorem TcpConnection.place_eq_awaiting_iff (c : TcpConnection) :
    c.summary.place = .awaiting ↔ c.state = .closed ∧ c.finalizePending = false := by
  cases state : c.state <;> cases pending : c.finalizePending <;>
    simp [TcpConnection.summary, SlotSummary.place, state, pending]

namespace Accounting

variable {k : TcpStack} {rx : Receiver}

/-- Only a connection that is closed is scheduled. -/
theorem unscheduled (accounts : Accounting k rx) {idx : Nat}
    (inside : idx < k.maxConnections) (unfinished : (rx.slots idx).state ≠ .closed) :
    (rx.slots idx).finalizePending = false := by
  cases pending : (rx.slots idx).finalizePending with
  | false => rfl
  | true =>
      have place := accounts.settled idx inside pending
      exact absurd ((rx.slots idx).place_eq_finalizing_iff.mp place).1 unfinished

end Accounting

theorem Accounting.initial (k : TcpStack) : Accounting k (Receiver.initial k) := by
  constructor
  case free => exact ⟨List.nodup_range, fun i => by simp [Receiver.initial, Receiver.summary,
    TcpConnection.summary, SlotSummary.place]⟩
  case awaiting => exact ⟨List.nodup_nil, fun i => by simp [Receiver.initial, Receiver.summary,
    TcpConnection.summary, SlotSummary.place]⟩
  case finalizing => exact ⟨List.nodup_nil, fun i => by simp [Receiver.initial, Receiver.summary,
    TcpConnection.summary, SlotSummary.place]⟩
  case settled =>
    intro i _ pending
    exact absurd pending Bool.false_ne_true
  case named =>
    intro i _ used
    exact absurd rfl used
  case flows =>
    refine ⟨∅, FlowTable.make_refines k.maxConnections_pos, ?_⟩
    intro key i
    simp [Receiver.initial, Receiver.summary, TcpConnection.summary, SlotSummary.place,
      SlotSummary.InFlow]

/-- Nothing that the slot accounting depends on differs. -/
structure SameSummary (rx rx' : Receiver) : Prop where
  freeSlots : rx'.freeSlots = rx.freeSlots
  awaitingRelease : rx'.awaitingRelease = rx.awaitingRelease
  finalizeList : rx'.finalizeList = rx.finalizeList
  flows : rx'.flows = rx.flows
  summary : rx'.summary = rx.summary

/-- A change of one slot that leaves its summary alone. -/
theorem SameSummary.updateSlot (rx : Receiver) (idx : Nat)
    {change : TcpConnection → TcpConnection}
    (same : (change (rx.slots idx)).summary = (rx.slots idx).summary) :
    SameSummary rx (rx.updateSlot idx change) :=
  ⟨rfl, rfl, rfl, rfl, by
    rw [Receiver.summary_updateSlot, same]
    exact Function.update_eq_self idx rx.summary⟩

theorem Accounting.congr {k : TcpStack} {rx rx' : Receiver} (accounts : Accounting k rx)
    (same : SameSummary rx rx') : Accounting k rx' := by
  unfold Accounting
  rw [same.freeSlots, same.awaitingRelease, same.finalizeList, same.flows, same.summary]
  exact accounts

end DpdkWrapper.Tcp
