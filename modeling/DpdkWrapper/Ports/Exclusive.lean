import DpdkWrapper.Ports.Port
import Mathlib.Data.Set.Function

/-!
# No queue is handed out twice

Any number of port objects, claimed from and moved about in any order.  A queue belongs
to one port object at a time, and that object's flags tell whether it has been handed
out.
-/

namespace DpdkWrapper.Ports

/-- What a setup thread does with ports, which it names by the order of their creation. -/
inductive PortOp where
  | construct (portId nRxQueues nTxQueues : BitVec 16)
  | claimQueue (object : Nat) (kind : QueueKind)
  | claimQueueById (object : Nat) (kind : QueueKind) (queueId : BitVec 16)
  | moveConstruct (source : Nat)
  | moveAssign (target source : Nat)
  deriving DecidableEq, Repr

/-- The port objects, the queues handed out so far, newest first, and the number of
constructions. -/
structure Setup where
  objects : List Port
  handed : List Queue
  serial : Nat
  deriving DecidableEq, Repr

/-- The queue that a claim by id hands out. -/
def handedOut : Except String (Option Queue) → Option Queue
  | .error _ => none
  | .ok result => result

namespace Port

/-- The queues of a new port bear the numbers of their places. -/
theorem opened_getElem? {serial : Nat} {portId nRxQueues nTxQueues : BitVec 16}
    {kind : QueueKind} {q : Nat} {queue : Queue}
    (at_ : ((opened serial portId nRxQueues nTxQueues).queueSet kind).queues[q]? = some queue) :
    queue = ⟨serial, kind, portId, q⟩ := by
  have placed {count : Nat} (found : (newQueues serial portId kind count)[q]? = some queue) :
      queue = ⟨serial, kind, portId, q⟩ := by
    rw [newQueues, List.getElem?_map, Option.map_eq_some_iff] at found
    obtain ⟨number, inRange, rfl⟩ := found
    rw [List.getElem?_eq_some_iff] at inRange
    obtain ⟨_, same⟩ := inRange
    rw [List.getElem_range] at same
    rw [same]
  cases kind with
  | rx => exact placed at_
  | tx => exact placed at_

/-- A new port has all its queues to hand out. -/
theorem marks_opened {serial : Nat} {portId nRxQueues nTxQueues : BitVec 16}
    {kind : QueueKind} {handed : List Queue}
    (fresh : ∀ queue ∈ ((opened serial portId nRxQueues nTxQueues).queueSet kind).queues,
      queue ∉ handed) :
    ((opened serial portId nRxQueues nTxQueues).queueSet kind).Marks handed := by
  have unclaimed {count : Nat} (freshQueues : ∀ queue ∈ newQueues serial portId kind count,
      queue ∉ handed) : (QueueSet.unclaimed (newQueues serial portId kind count)).Marks handed := by
    refine ⟨List.length_replicate, ?_, ?_, ?_⟩
    · apply List.Nodup.map _ List.nodup_range
      intro first second same
      exact congrArg Queue.queueId same
    · intro index queue found
      refine iff_of_false ?_ (freshQueues queue (List.mem_of_getElem? found))
      intro flag
      rw [QueueSet.unclaimed, List.getElem?_replicate] at flag
      split at flag <;> cases flag
    · intro index queue below
      cases below
  cases kind with
  | rx => exact unclaimed fresh
  | tx => exact unclaimed fresh

end Port

/-- A moved-from object has nothing to hand out. -/
theorem QueueSet.marks_emptied (set : QueueSet Queue) (handed : List Queue) :
    set.emptied.Marks handed where
  sized := rfl
  distinct := List.nodup_nil
  marks := fun found => by cases found
  below := fun _ found => by cases found

namespace Setup

def start : Setup := ⟨[], [], 0⟩

/-- One object replaced after a claim, and its result recorded. -/
def claimed (setup : Setup) (object : Nat) (port : Port) (result : Option Queue) : Setup :=
  { setup with objects := setup.objects.set object port, handed := result.toList ++ setup.handed }

/-- One operation.  `none` stands for an object that does not exist, or for a read out of
bounds. -/
def step (setup : Setup) : PortOp → Option Setup
  | .construct portId nRxQueues nTxQueues =>
      some { setup with
        objects := setup.objects ++ [.opened setup.serial portId nRxQueues nTxQueues]
        serial := setup.serial + 1 }
  | .claimQueue object kind => do
      let port ← setup.objects[object]?
      let claim ← port.claimQueue kind
      some (setup.claimed object claim.2 claim.1)
  | .claimQueueById object kind queueId => do
      let port ← setup.objects[object]?
      let claim ← port.claimQueueById queueId kind
      some (setup.claimed object claim.2 (handedOut claim.1))
  | .moveConstruct source => do
      let other ← setup.objects[source]?
      let moved := other.moveConstruct
      some { setup with objects := setup.objects.set source moved.2 ++ [moved.1] }
  | .moveAssign target source => do
      let port ← setup.objects[target]?
      let other ← setup.objects[source]?
      if target = source then
        some setup
      else
        let moved := (port.moveAssign other).1
        some { setup with objects := (setup.objects.set target moved.1).set source moved.2 }

def run (setup : Setup) (ops : List PortOp) : Option Setup :=
  ops.foldlM step setup

/-! ## Who holds what -/

/-- A port object holds a queue. -/
def Holds (setup : Setup) (object : Nat) (kind : QueueKind) (queue : Queue) : Prop :=
  ∃ port, setup.objects[object]? = some port ∧ queue ∈ (port.queueSet kind).queues

/-- Every queue has one holder, and its holder knows whether it has been handed out. -/
structure Exclusive (setup : Setup) : Prop where
  nodup : setup.handed.Nodup
  marks : ∀ {object : Nat} {port : Port}, setup.objects[object]? = some port →
    ∀ kind, (port.queueSet kind).Marks setup.handed
  numbered : ∀ {object : Nat} {port : Port}, setup.objects[object]? = some port →
    ∀ {kind : QueueKind} {q : Nat} {queue : Queue},
      (port.queueSet kind).queues[q]? = some queue →
      queue.queueId = q ∧ queue.kind = kind ∧ queue.portId = port.portId
  holder : ∀ {first second : Nat} {kind : QueueKind} {queue : Queue},
    setup.Holds first kind queue → setup.Holds second kind queue → first = second
  held : ∀ {object : Nat} {kind : QueueKind} {queue : Queue},
    setup.Holds object kind queue → queue.serial < setup.serial
  past : ∀ {queue : Queue}, queue ∈ setup.handed → queue.serial < setup.serial

theorem start_exclusive : start.Exclusive where
  nodup := List.nodup_nil
  marks := fun found => by cases found
  numbered := fun found => by cases found
  holder := by
    rintro _ _ _ _ ⟨_, found, _⟩
    cases found
  held := by
    rintro _ _ _ ⟨_, found, _⟩
    cases found
  past := fun member => by cases member

namespace Exclusive

variable {setup : Setup} {object : Nat} {port : Port} {kind : QueueKind}

/-- The holder of a queue holds it among the queues of its kind. -/
theorem kind_eq (exclusive : setup.Exclusive) {queue : Queue}
    (holds : setup.Holds object kind queue) : queue.kind = kind := by
  obtain ⟨port, found, member⟩ := holds
  obtain ⟨q, at_⟩ := List.getElem?_of_mem member
  exact (exclusive.numbered found at_).2.1

/-- An object after a claim: it holds the queues it held, and only the flags of the kind
claimed from may have changed. -/
theorem claimed_objects {set : QueueSet Queue} {result : Option Queue}
    (found : setup.objects[object]? = some port)
    (same : set.queues = (port.queueSet kind).queues) {index : Nat} {after : Port}
    (foundAfter : (setup.claimed object (port.withQueueSet kind set) result).objects[index]? =
      some after) :
    ∃ before, setup.objects[index]? = some before ∧ after.portId = before.portId ∧
      (∀ other, (after.queueSet other).queues = (before.queueSet other).queues) ∧
      ∀ other, index = object ∧ other = kind ∧ after.queueSet other = set ∨
        ¬ (index = object ∧ other = kind) ∧ after.queueSet other = before.queueSet other := by
  have inside := (List.getElem?_eq_some_iff.mp found).1
  rw [claimed] at foundAfter
  dsimp only at foundAfter
  by_cases here : object = index
  · subst here
    rw [List.getElem?_set_self inside, Option.some.injEq] at foundAfter
    subst foundAfter
    refine ⟨port, found, by cases kind <;> rfl, ?_, ?_⟩
    · intro other
      by_cases sameKind : other = kind
      · subst sameKind
        rw [Port.queueSet_withQueueSet, same]
      · rw [Port.queueSet_withQueueSet_of_ne _ sameKind]
    · intro other
      by_cases sameKind : other = kind
      · subst sameKind
        exact .inl ⟨rfl, rfl, Port.queueSet_withQueueSet _ _ _⟩
      · exact .inr ⟨fun both => sameKind both.2, Port.queueSet_withQueueSet_of_ne _ sameKind _⟩
  · rw [List.getElem?_set_ne here] at foundAfter
    exact ⟨after, foundAfter, rfl, fun _ => rfl, fun _ => .inr ⟨fun both => here both.1.symm, rfl⟩⟩

theorem holds_of_claimed {set : QueueSet Queue} {result : Option Queue}
    (found : setup.objects[object]? = some port)
    (same : set.queues = (port.queueSet kind).queues) {index : Nat} {other : QueueKind}
    {queue : Queue}
    (holds : (setup.claimed object (port.withQueueSet kind set) result).Holds index other queue) :
    setup.Holds index other queue := by
  obtain ⟨after, foundAfter, member⟩ := holds
  obtain ⟨before, foundBefore, _, queues, _⟩ := claimed_objects found same foundAfter
  rw [queues] at member
  exact ⟨before, foundBefore, member⟩

/-- A claim that hands out nothing, or a queue that was left. -/
theorem claimed (exclusive : setup.Exclusive) {set : QueueSet Queue} {result : Option Queue}
    (found : setup.objects[object]? = some port)
    (same : set.queues = (port.queueSet kind).queues)
    (marks : set.Marks (result.toList ++ setup.handed))
    (left : ∀ {queue : Queue}, result = some queue →
      queue ∈ (port.queueSet kind).queues ∧ queue ∉ setup.handed) :
    (setup.claimed object (port.withQueueSet kind set) result).Exclusive where
  nodup := by
    cases result with
    | none => exact exclusive.nodup
    | some queue => exact List.nodup_cons.mpr ⟨(left rfl).2, exclusive.nodup⟩
  marks := by
    intro index after foundAfter other
    obtain ⟨before, foundBefore, _, _, sets⟩ := claimed_objects found same foundAfter
    rcases sets other with ⟨_, _, claimed⟩ | ⟨apart, untouched⟩
    · rw [claimed]
      exact marks
    · rw [untouched]
      cases result with
      | none => exact exclusive.marks foundBefore other
      | some queue =>
          apply (exclusive.marks foundBefore other).elsewhere
          -- No other set holds the queue: not another object's, and not one of the other kind.
          intro elsewhere
          have holds : setup.Holds object kind queue := ⟨port, found, (left rfl).1⟩
          have also : setup.Holds index other queue := ⟨before, foundBefore, elsewhere⟩
          have sameKind : other = kind :=
            (exclusive.kind_eq also).symm.trans (exclusive.kind_eq holds)
          subst sameKind
          exact apart ⟨exclusive.holder also holds, rfl⟩
  numbered := by
    intro index after foundAfter other q queue at_
    obtain ⟨before, foundBefore, portId, queues, _⟩ := claimed_objects found same foundAfter
    rw [queues] at at_
    rw [portId]
    exact exclusive.numbered foundBefore at_
  holder := fun first second =>
    exclusive.holder (holds_of_claimed found same first) (holds_of_claimed found same second)
  held := fun holds => exclusive.held (holds_of_claimed found same holds)
  past := by
    intro queue handed
    cases result with
    | none => exact exclusive.past handed
    | some first =>
        rcases List.mem_cons.mp handed with rfl | earlier
        · exact exclusive.held ⟨port, found, (left rfl).1⟩
        · exact exclusive.past earlier

/-- A claim of the next queue. -/
theorem claimQueue (exclusive : setup.Exclusive) (found : setup.objects[object]? = some port)
    (kind : QueueKind) :
    ∃ result after, port.claimQueue kind = some (result, after) ∧
      (∃ set, after = port.withQueueSet kind set ∧
        (port.queueSet kind).ClaimsNext setup.handed result set) ∧
      (setup.claimed object after result).Exclusive := by
  obtain ⟨result, set, claimed, claims⟩ := (exclusive.marks found kind).claimNext
  rw [Port.claimQueue_eq, claimed]
  refine ⟨result, _, rfl, ⟨set, rfl, claims⟩, ?_⟩
  cases claims with
  | exhausted _ same marks =>
      refine exclusive.claimed found same marks ?_
      rintro _ ⟨⟩
  | handed at_ left _ same marks =>
      refine exclusive.claimed found same ?_ ?_
      · exact marks
      · rintro _ ⟨⟩
        exact ⟨List.mem_of_getElem? at_, left⟩

/-- A claim by id. -/
theorem claimQueueById (exclusive : setup.Exclusive)
    (found : setup.objects[object]? = some port) (kind : QueueKind) (queueId : BitVec 16) :
    ∃ result after, port.claimQueueById queueId kind = some (result, after) ∧
      (∃ set, after = port.withQueueSet kind set ∧
        (port.queueSet kind).ClaimsById setup.handed queueId.toNat result set) ∧
      (setup.claimed object after (handedOut result)).Exclusive := by
  have marksBefore := exclusive.marks found kind
  obtain ⟨result, set, claimed, claims⟩ := marksBefore.claimById queueId port.portId kind.text
  rw [Port.claimQueueById_eq, claimed]
  refine ⟨result, _, rfl, ⟨set, rfl, claims⟩, ?_⟩
  cases claims with
  | throws _ =>
      refine exclusive.claimed found rfl marksBefore ?_
      rintro _ ⟨⟩
  | taken _ _ =>
      refine exclusive.claimed found rfl marksBefore ?_
      rintro _ ⟨⟩
  | handed at_ left same marks =>
      refine exclusive.claimed found same ?_ ?_
      · exact marks
      · rintro _ ⟨⟩
        exact ⟨List.mem_of_getElem? at_, left⟩

/-- Ports moved about: every object is a moved-from one or was an object before, and no
two were the same one. -/
theorem rearranged (exclusive : setup.Exclusive) {objects : List Port} (origin : Nat → Nat)
    (kept : Set Nat) (apart : Set.InjOn origin kept)
    (moved : ∀ {index : Nat} {after : Port}, objects[index]? = some after →
      (∃ before, after = Port.movedFrom before) ∨
        index ∈ kept ∧ setup.objects[origin index]? = some after) :
    Exclusive { setup with objects } := by
  have came {index : Nat} {kind : QueueKind} {queue : Queue}
      (holds : Holds { setup with objects } index kind queue) :
      index ∈ kept ∧ setup.Holds (origin index) kind queue := by
    obtain ⟨after, found, member⟩ := holds
    rcases moved found with ⟨before, rfl⟩ | ⟨inKept, foundBefore⟩
    · rw [Port.queueSet_movedFrom] at member
      cases member
    · exact ⟨inKept, after, foundBefore, member⟩
  refine ⟨exclusive.nodup, ?_, ?_, ?_, fun holds => exclusive.held (came holds).2, exclusive.past⟩
  · intro index after found kind
    rcases moved found with ⟨before, rfl⟩ | ⟨_, foundBefore⟩
    · rw [Port.queueSet_movedFrom]
      exact QueueSet.marks_emptied _ _
    · exact exclusive.marks foundBefore kind
  · intro index after found kind q queue at_
    rcases moved found with ⟨before, rfl⟩ | ⟨_, foundBefore⟩
    · rw [Port.queueSet_movedFrom] at at_
      cases at_
    · exact exclusive.numbered foundBefore at_
  · intro first second kind queue firstHolds secondHolds
    obtain ⟨firstKept, firstHeld⟩ := came firstHolds
    obtain ⟨secondKept, secondHeld⟩ := came secondHolds
    exact apart firstKept secondKept (exclusive.holder firstHeld secondHeld)

/-- An object of a list with one more, and whether it is the new one. -/
theorem getElem?_concat_cases {objects : List Port} {last port : Port} {index : Nat}
    (found : (objects ++ [last])[index]? = some port) :
    objects[index]? = some port ∧ index < objects.length ∨
      index = objects.length ∧ port = last := by
  by_cases old : index < objects.length
  · rw [List.getElem?_append_left old] at found
    exact .inl ⟨found, old⟩
  · have bound := (List.getElem?_eq_some_iff.mp found).1
    rw [List.length_append, List.length_singleton] at bound
    have end_ : index = objects.length := by omega
    subst end_
    rw [List.getElem?_append_right (Nat.le_refl _), Nat.sub_self] at found
    cases found
    exact .inr ⟨rfl, rfl⟩

theorem moveConstruct (exclusive : setup.Exclusive) {source : Nat} {other : Port}
    (found : setup.objects[source]? = some other) :
    Exclusive { setup with objects := setup.objects.set source other.movedFrom ++ [other] } := by
  have inside := (List.getElem?_eq_some_iff.mp found).1
  apply exclusive.rearranged (fun index => if index = setup.objects.length then source else index)
    { index | index ≠ source }
  · intro first firstKept second secondKept same
    change first ≠ source at firstKept
    change second ≠ source at secondKept
    dsimp only at same
    split at same <;> split at same <;> omega
  · intro index after foundAfter
    rcases getElem?_concat_cases foundAfter with ⟨foundOld, old⟩ | ⟨last, rfl⟩
    · rw [List.length_set] at old
      by_cases here : source = index
      · subst here
        rw [List.getElem?_set_self inside, Option.some.injEq] at foundOld
        exact .inl ⟨other, foundOld.symm⟩
      · rw [List.getElem?_set_ne here] at foundOld
        right
        rw [if_neg (Nat.ne_of_lt old)]
        exact ⟨Ne.symm here, foundOld⟩
    · rw [List.length_set] at last
      subst last
      right
      rw [if_pos rfl]
      exact ⟨Ne.symm (Nat.ne_of_lt inside), found⟩

theorem moveAssign (exclusive : setup.Exclusive) (target : Nat) {source : Nat} {other : Port}
    (found : setup.objects[source]? = some other) :
    Exclusive { setup with
      objects := (setup.objects.set target other).set source other.movedFrom } := by
  have inside := (List.getElem?_eq_some_iff.mp found).1
  apply exclusive.rearranged (fun index => if index = target then source else index)
    { index | index ≠ source }
  · intro first firstKept second secondKept same
    change first ≠ source at firstKept
    change second ≠ source at secondKept
    dsimp only at same
    split at same <;> split at same <;> omega
  · intro index after foundAfter
    by_cases here : source = index
    · subst here
      rw [List.getElem?_set_self (by rwa [List.length_set]), Option.some.injEq] at foundAfter
      exact .inl ⟨other, foundAfter.symm⟩
    · right
      refine ⟨Ne.symm here, ?_⟩
      rw [List.getElem?_set_ne here] at foundAfter
      by_cases there : target = index
      · subst there
        have bound := (List.getElem?_eq_some_iff.mp foundAfter).1
        rw [List.length_set] at bound
        rw [List.getElem?_set_self bound] at foundAfter
        rw [if_pos rfl, found]
        exact foundAfter
      · rw [List.getElem?_set_ne there] at foundAfter
        rwa [if_neg (Ne.symm there)]

theorem construct (exclusive : setup.Exclusive) (portId nRxQueues nTxQueues : BitVec 16) :
    Exclusive { setup with
      objects := setup.objects ++ [.opened setup.serial portId nRxQueues nTxQueues]
      serial := setup.serial + 1 } := by
  set new := Port.opened setup.serial portId nRxQueues nTxQueues with isNew
  have inNew {kind : QueueKind} {queue : Queue} (member : queue ∈ (new.queueSet kind).queues) :
      queue.serial = setup.serial := by
    obtain ⟨q, at_⟩ := List.getElem?_of_mem member
    rw [Port.opened_getElem? at_]
  have holds_cases {index : Nat} {kind : QueueKind} {queue : Queue}
      (holds : Holds { setup with objects := setup.objects ++ [new], serial := setup.serial + 1 }
        index kind queue) :
      setup.Holds index kind queue ∨
        index = setup.objects.length ∧ queue.serial = setup.serial := by
    obtain ⟨port, found, member⟩ := holds
    rcases getElem?_concat_cases found with ⟨foundOld, _⟩ | ⟨last, rfl⟩
    · exact .inl ⟨port, foundOld, member⟩
    · exact .inr ⟨last, inNew member⟩
  refine ⟨exclusive.nodup, ?_, ?_, ?_, ?_, ?_⟩
  · intro index port found kind
    rcases getElem?_concat_cases found with ⟨foundOld, _⟩ | ⟨_, rfl⟩
    · exact exclusive.marks foundOld kind
    · apply Port.marks_opened
      intro queue member handed
      exact absurd (exclusive.past handed) (by rw [inNew member]; exact Nat.lt_irrefl _)
  · intro index port found kind q queue at_
    rcases getElem?_concat_cases found with ⟨foundOld, _⟩ | ⟨_, rfl⟩
    · exact exclusive.numbered foundOld at_
    · rw [Port.opened_getElem? at_]
      exact ⟨rfl, rfl, rfl⟩
  · intro first second kind queue firstHolds secondHolds
    rcases holds_cases firstHolds with firstOld | ⟨firstLast, firstSerial⟩
    · rcases holds_cases secondHolds with secondOld | ⟨_, secondSerial⟩
      · exact exclusive.holder firstOld secondOld
      · exact absurd (exclusive.held firstOld) (by rw [secondSerial]; exact Nat.lt_irrefl _)
    · rcases holds_cases secondHolds with secondOld | ⟨secondLast, _⟩
      · exact absurd (exclusive.held secondOld) (by rw [firstSerial]; exact Nat.lt_irrefl _)
      · rw [firstLast, secondLast]
  · intro index kind queue holds
    rcases holds_cases holds with old | ⟨_, serial⟩
    · exact Nat.lt_succ_of_lt (exclusive.held old)
    · rw [serial]
      exact Nat.lt_succ_self _
  · intro queue handed
    exact Nat.lt_succ_of_lt (exclusive.past handed)

/-- Every operation keeps it. -/
theorem step (exclusive : setup.Exclusive) {op : PortOp} {after : Setup}
    (stepped : setup.step op = some after) : after.Exclusive := by
  cases op with
  | construct portId nRxQueues nTxQueues =>
      cases stepped
      exact exclusive.construct portId nRxQueues nTxQueues
  | claimQueue object kind =>
      obtain ⟨port, found, stepped⟩ := Option.bind_eq_some_iff.mp stepped
      obtain ⟨result, next, claimed, _, kept⟩ := exclusive.claimQueue found kind
      rw [claimed] at stepped
      cases stepped
      exact kept
  | claimQueueById object kind queueId =>
      obtain ⟨port, found, stepped⟩ := Option.bind_eq_some_iff.mp stepped
      obtain ⟨result, next, claimed, _, kept⟩ := exclusive.claimQueueById found kind queueId
      rw [claimed] at stepped
      cases stepped
      exact kept
  | moveConstruct source =>
      obtain ⟨other, found, stepped⟩ := Option.bind_eq_some_iff.mp stepped
      cases stepped
      exact exclusive.moveConstruct found
  | moveAssign target source =>
      obtain ⟨port, _, stepped⟩ := Option.bind_eq_some_iff.mp stepped
      obtain ⟨other, found, stepped⟩ := Option.bind_eq_some_iff.mp stepped
      split at stepped
      · cases stepped
        exact exclusive
      · cases stepped
        exact exclusive.moveAssign target found

theorem run (exclusive : setup.Exclusive) {ops : List PortOp} {after : Setup}
    (ran : setup.run ops = some after) : after.Exclusive := by
  induction ops generalizing setup with
  | nil =>
      cases ran
      exact exclusive
  | cons op rest ih =>
      rw [Setup.run, List.foldlM_cons] at ran
      obtain ⟨next, stepped, ran⟩ := Option.bind_eq_some_iff.mp ran
      exact ih (exclusive.step stepped) ran

end Exclusive

end Setup

/-- Claims are exclusive and exhaustive.  After any constructions, claims and moves no
queue has been handed out twice.  From there, for every port object and either kind:
the next claim gives the lowest-numbered queue that neither form has handed out, and
nothing exactly if there is none; a claim by id throws exactly for a number without a
queue, changing nothing, gives nothing exactly for a queue that was handed out, and the
queue otherwise; and no claim changes anything about the other kind. -/
theorem claims_are_exclusive_and_exhaustive {ops : List PortOp} {setup : Setup}
    (ran : Setup.start.run ops = some setup) :
    setup.handed.Nodup ∧
      ∀ (object : Nat) (port : Port), setup.objects[object]? = some port →
      ∀ (kind : QueueKind) (queues : List Queue), queues = (port.queueSet kind).queues →
        (∀ (q : Nat) (queue : Queue), queues[q]? = some queue →
          queue.queueId = q ∧ queue.kind = kind ∧ queue.portId = port.portId) ∧
        (∃ result after, port.claimQueue kind = some (result, after) ∧
          (result = none ↔ ∀ queue ∈ queues, queue ∈ setup.handed) ∧
          (∀ queue, result = some queue →
            ∃ q : Nat, queues[q]? = some queue ∧ queue ∉ setup.handed ∧
              ∀ (lower : Nat) (passed : Queue), lower < q → queues[lower]? = some passed →
                passed ∈ setup.handed) ∧
          ∀ other, other ≠ kind → after.queueSet other = port.queueSet other) ∧
        ∀ queueId, ∃ result after, port.claimQueueById queueId kind = some (result, after) ∧
          ((∃ message, result = .error message) ↔ queues.length ≤ queueId.toNat) ∧
          ((∃ message, result = .error message) → after = port) ∧
          (result = .ok none ↔ ∃ queue ∈ setup.handed, queues[queueId.toNat]? = some queue) ∧
          (∀ queue, result = .ok (some queue) ↔
            queues[queueId.toNat]? = some queue ∧ queue ∉ setup.handed) ∧
          ∀ other, other ≠ kind → after.queueSet other = port.queueSet other := by
  have exclusive := Setup.start_exclusive.run ran
  refine ⟨exclusive.nodup, ?_⟩
  rintro object port found kind _ rfl
  refine ⟨fun q queue at_ => exclusive.numbered found at_, ?_, ?_⟩
  · obtain ⟨result, _, claimed, ⟨set, rfl, claims⟩, _⟩ := exclusive.claimQueue found kind
    refine ⟨result, _, claimed, claims.result_eq_none, claims.result_eq_some, ?_⟩
    intro other different
    exact port.queueSet_withQueueSet_of_ne different set
  · intro queueId
    obtain ⟨result, _, claimed, ⟨set, rfl, claims⟩, _⟩ :=
      exclusive.claimQueueById found kind queueId
    refine ⟨result, _, claimed, claims.throws_iff, ?_, claims.result_eq_none,
      claims.result_eq_some, ?_⟩
    · intro threw
      rw [claims.unchanged threw]
      cases kind <;> rfl
    · intro other different
      exact port.queueSet_withQueueSet_of_ne different set

/-- A claim by id, then claims of the next queue on both sides of a move. -/
def mixedClaims : List PortOp :=
  [.construct 1 4 4, .claimQueueById 0 .rx 1, .claimQueue 0 .rx, .moveConstruct 0,
    .claimQueue 1 .rx]

theorem mixedClaims_exclusive :
    ∃ setup, Setup.start.run mixedClaims = some setup ∧
      setup.handed.map Queue.queueId = [2, 0, 1] ∧ setup.handed.Nodup := by
  obtain ⟨setup, ran⟩ := Option.isSome_iff_exists.mp
    (by decide : (Setup.start.run mixedClaims).isSome)
  refine ⟨setup, ran, ?_, (claims_are_exclusive_and_exhaustive ran).1⟩
  have handed : (Setup.start.run mixedClaims).map (fun final => final.handed.map Queue.queueId) =
      some [2, 0, 1] := by decide
  rw [ran, Option.map_some, Option.some.injEq] at handed
  exact handed

end DpdkWrapper.Ports
