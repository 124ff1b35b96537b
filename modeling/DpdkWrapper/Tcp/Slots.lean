import DpdkWrapper.Tcp.CallFrame

/-!
# Slots over whole runs

In every state of a run each slot is free, awaits its release or has a flow
entry, and exactly one of these holds.

`InOrder` is the slot accounting together with what holds between tasks: the receiver is ready
for the next packet, and between polls nothing is left to finalize.  Each task keeps it by its
specification in `InboundThread`, calls keep it by their frame.
-/

namespace DpdkWrapper.Tcp

open Threads Wire

/-! ## The invariant of runs -/

/-- What holds between tasks and calls. -/
structure InOrder (k : TcpStack) (state : State) : Prop where
  accounts : Accounting k state.memory.rx
  ready : Ready state.memory
  settled : state.phase = .idle → state.memory.rx.finalizeList = []

theorem Spec.run {rx : Receiver} {α : Type} {program : Code α}
    {post : α → Receiver → Prop} (spec : Spec .lax rx program post) {mem : Memory}
    (same : mem.rx = rx) (ready : Ready mem) :
    post (program.run mem).1 (program.run mem).2.rx ∧ Ready (program.run mem).2 :=
  Program.Meets.run (fun _ _ => trivial) (spec mem same ready)

/-- Whatever a task may record is admitted. -/
def Task.Admitted (k : TcpStack) (terms : Terms) (rx : Receiver) : Task → Prop
  | packet received => ∀ seg,
      decode k received.frame received.contiguous = some (.segment seg) →
        ∀ i, FlowTable.key (rx.slots i).peerIp (rx.slots i).peerPort (rx.slots i).localPort =
          FlowTable.key seg.srcIp seg.srcPort seg.dstPort →
            terms.acks (rx.slots i).identity seg.ack
  | _ => True

theorem Task.code_spec {k : TcpStack} {terms : Terms} {rx : Receiver}
    (accounts : Accounting k rx) (task : Task) (admitted : task.Admitted k terms rx) :
    Spec terms rx (task.code k) fun _ rx' => Accounting k rx' := by
  cases task with
  | beginPoll => exact beginPoll_spec accounts
  | packet received => exact process_spec accounts received admitted
  | endPoll env => exact endPoll_spec accounts env

/-- Without a condition on ACKs every task is admitted. -/
theorem Task.admitted_of_acks {terms : Terms} (acks : ∀ identity ack, terms.acks identity ack)
    (k : TcpStack) (rx : Receiver) (task : Task) : task.Admitted k terms rx := by
  cases task with
  | packet received => exact fun _ _ _ _ => acks _ _
  | beginPoll => trivial
  | endPoll env => trivial

theorem finalizeList_endPoll (k : TcpStack) (env : FlushEnv) (mem : Memory) :
    ((endPoll k env).run mem).2.rx.finalizeList = [] := by
  simp [endPoll, finalize, inbound]

theorem InOrder.initial (k : TcpStack) : InOrder k (State.initial k) where
  accounts := Accounting.initial k
  ready _ := rfl
  settled _ := rfl

theorem InOrder.act {k : TcpStack} {state state' : State} {action : Action}
    (inOrder : InOrder k state) (act : Act k state action state') : InOrder k state' := by
  cases act with
  | @task phase phase' mem task enabled =>
      have admitted : task.Admitted k .lax mem.rx :=
        Task.admitted_of_acks (fun _ _ => trivial) k mem.rx task
      obtain ⟨accounts, ready⟩ :=
        (Task.code_spec inOrder.accounts task admitted).run rfl inOrder.ready
      refine ⟨accounts, ready, ?_⟩
      intro idle
      cases Phase.next_cases enabled with
      | beginPoll | packet => cases idle
      | endPoll env => exact finalizeList_endPoll k env mem
  | @call phase mem call =>
      have frame := call.run_frame k mem
      constructor
      case accounts =>
        rw [frame.rx]
        exact inOrder.accounts
      case ready =>
        intro i
        rw [frame.resets, frame.rx]
        exact inOrder.ready i
      case settled =>
        intro idle
        rw [frame.rx]
        exact inOrder.settled idle

/-- Every reachable state is in order. -/
theorem Reachable.inOrder {k : TcpStack} {state : State} (reachable : Reachable k state) :
    InOrder k state :=
  Run.invariant (InOrder k) reachable (InOrder.initial k) fun _ _ _ inOrder act _ => inOrder.act act

/-! ## Reaping -/

theorem length_swapRemove (entries : List Nat) (i : Nat) :
    (swapRemove entries i).length = entries.length - 1 := by
  simp [swapRemove]

theorem getElem?_swapRemove_of_lt {entries : List Nat} {i j : Nat} (before : j < i)
    (inside : i < entries.length) : (swapRemove entries i)[j]? = entries[j]? := by
  rw [swapRemove, List.getElem?_dropLast, if_pos (by simp; omega),
    List.getElem?_set_ne (Nat.ne_of_gt before)]

/-- What an uninterrupted `reap_released` has done from index `i` on. -/
structure Reaped (before after : Memory) : Prop where
  tx : after.tx = before.tx
  finalizeList : after.rx.finalizeList = before.rx.finalizeList
  slots : ∀ i, after.rx.slots i = before.rx.slots i ∨ (after.rx.slots i).state = .free
  held : ∀ i ∈ after.rx.awaitingRelease, hasReleased (after.tx.slots i).outFlags = false

theorem reapLoop_reaps (fuel i : Nat) (mem : Memory)
    (enough : mem.rx.awaitingRelease.length < fuel + i)
    (passed : ∀ j idx, j < i → mem.rx.awaitingRelease[j]? = some idx →
      hasReleased (mem.tx.slots idx).outFlags = false) :
    Reaped mem ((reapLoop fuel i).run mem).2 := by
  induction fuel generalizing i mem with
  | zero =>
      refine ⟨rfl, rfl, fun _ => Or.inl rfl, ?_⟩
      intro idx member
      obtain ⟨j, found⟩ := List.mem_iff_getElem?.mp member
      have inside : j < mem.rx.awaitingRelease.length :=
        (List.getElem?_eq_some_iff.mp found).1
      exact passed j idx (by omega) found
  | succ fuel ih =>
      rw [reapLoop, run_viewRx_bind]
      cases found : mem.rx.awaitingRelease[i]? with
      | none =>
          refine ⟨rfl, rfl, fun _ => Or.inl rfl, ?_⟩
          intro idx member
          obtain ⟨j, foundAt⟩ := List.mem_iff_getElem?.mp member
          refine passed j idx ?_ foundAt
          have inside := (List.getElem?_eq_some_iff.mp foundAt).1
          exact Nat.lt_of_lt_of_le inside (List.getElem?_eq_none_iff.mp found)
      | some idx =>
          have inside := (List.getElem?_eq_some_iff.mp found).1
          dsimp only
          rw [run_loadOutFlags_bind]
          by_cases released : hasReleased (mem.tx.slots idx).outFlags = true
          case pos =>
              rw [if_pos released, run_inbound_bind]
              have rest := ih i ⟨{ mem.rx.releaseSlot idx with
                  awaitingRelease := swapRemove mem.rx.awaitingRelease i }, mem.tx⟩
                (by simp only [length_swapRemove]; omega)
                (fun j other before foundAt => passed j other before (by
                  rwa [getElem?_swapRemove_of_lt before inside] at foundAt))
              refine ⟨rest.tx, rest.finalizeList, ?_, rest.held⟩
              intro slot
              rcases rest.slots slot with same | free
              · rw [same]
                by_cases this : slot = idx
                · simp [this]
                · simp [this]
              · exact Or.inr free
          case neg =>
              rw [if_neg released]
              refine ih (i + 1) mem (by omega) ?_
              intro j other before foundAt
              rcases Nat.lt_succ_iff_lt_or_eq.mp before with earlier | rfl
              · exact passed j other earlier foundAt
              · rw [found] at foundAt
                cases foundAt
                simpa using released

/-- An uninterrupted start of a poll leaves no released slot on the list. -/
theorem beginPoll_reaps (mem : Memory) : Reaped mem (beginPoll.run mem).2 := by
  have reaped := reapLoop_reaps (mem.rx.awaitingRelease.length + 1) 0
    ⟨{ mem.rx with events := [] }, mem.tx⟩ (by simp) (by simp)
  exact ⟨reaped.tx, reaped.finalizeList, reaped.slots, reaped.held⟩

/-! ## The partition -/

/-- Every slot is in exactly one place: on the free list, on the list of slots
that await their release, or in the flow table under its own tuple. -/
structure Partitioned (k : TcpStack) (rx : Receiver) : Prop where
  freeNodup : rx.freeSlots.Nodup
  mem_freeSlots : ∀ i, i ∈ rx.freeSlots ↔ i < k.maxConnections ∧ (rx.slots i).state = .free
  awaitingNodup : rx.awaitingRelease.Nodup
  awaiting : ∀ i ∈ rx.awaitingRelease, i < k.maxConnections ∧
    (rx.slots i).state = .closed ∧ ∀ key, ¬ rx.flows.HasEntry key i
  hasEntry_iff : ∀ key i, rx.flows.HasEntry key i ↔ i < k.maxConnections ∧
    i ∉ rx.freeSlots ∧ i ∉ rx.awaitingRelease ∧ rx.flowKey i = key
  entriesNodup : ∀ first < rx.flows.size, ∀ second < rx.flows.size,
    (rx.flows.cells first).key ≠ 0 → (rx.flows.cells second).key ≠ 0 →
    (rx.flows.cells first).value = (rx.flows.cells second).value → first = second
  tuples : ∀ i < k.maxConnections, ∀ j < k.maxConnections,
    i ∉ rx.freeSlots → i ∉ rx.awaitingRelease → j ∉ rx.freeSlots → j ∉ rx.awaitingRelease →
    (rx.slots i).peerIp = (rx.slots j).peerIp → (rx.slots i).peerPort = (rx.slots j).peerPort →
    (rx.slots i).localPort = (rx.slots j).localPort → i = j

namespace Accounting

variable {k : TcpStack} {rx : Receiver}

variable (accounts : Accounting k rx)
include accounts

/-- A slot has a flow entry unless it is on one of the lists. -/
theorem inFlow_iff {i : Nat} (inside : i < k.maxConnections) :
    (rx.summary i).InFlow ↔ i ∉ rx.freeSlots ∧ i ∉ rx.awaitingRelease := by
  rw [accounts.free.mem_iff, accounts.awaiting.mem_iff, SlotSummary.InFlow]
  cases (rx.summary i).place <;> simp [inside]

theorem hasEntry_iff (key : BitVec 64) (i : Nat) :
    rx.flows.HasEntry key i ↔ i < k.maxConnections ∧ i ∉ rx.freeSlots ∧
      i ∉ rx.awaitingRelease ∧ rx.flowKey i = key := by
  obtain ⟨map, refines, entries⟩ := accounts.flows
  rw [refines.hasEntry_iff, entries]
  constructor
  · rintro ⟨inside, inFlow, named⟩
    obtain ⟨notFree, notAwaiting⟩ := (accounts.inFlow_iff inside).mp inFlow
    exact ⟨inside, notFree, notAwaiting, named⟩
  · rintro ⟨inside, notFree, notAwaiting, named⟩
    exact ⟨inside, (accounts.inFlow_iff inside).mpr ⟨notFree, notAwaiting⟩, named⟩

theorem eq_of_hasEntry {key : BitVec 64} {i j : Nat} (first : rx.flows.HasEntry key i)
    (second : rx.flows.HasEntry key j) : i = j := by
  obtain ⟨map, refines, _⟩ := accounts.flows
  rw [refines.hasEntry_iff] at first second
  rw [first] at second
  exact Option.some.inj second

theorem ne_free_of_inFlow {i : Nat} (inside : i < k.maxConnections)
    (inFlow : (rx.summary i).InFlow) :
    (rx.slots i).state ≠ .free := by
  intro free
  refine ((accounts.inFlow_iff inside).mp inFlow).1 ((accounts.free.mem_iff i).mpr ⟨inside, ?_⟩)
  exact (rx.slots i).place_eq_free_iff.mpr free

/-- A connection that is not terminal has its flow entry. -/
theorem inFlow_of_live {i : Nat} (inside : i < k.maxConnections)
    (unfree : (rx.slots i).state ≠ .free) (unclosed : (rx.slots i).state ≠ .closed) :
    (rx.summary i).InFlow := by
  refine (accounts.inFlow_iff inside).mpr ⟨?_, ?_⟩
  · intro free
    exact unfree ((rx.slots i).place_eq_free_iff.mp ((accounts.free.mem_iff i).mp free).2)
  · intro awaiting
    exact unclosed ((rx.slots i).place_eq_awaiting_iff.mp
      ((accounts.awaiting.mem_iff i).mp awaiting).2).1

theorem partitioned : Partitioned k rx := by
  constructor
  case freeNodup => exact accounts.free.nodup
  case mem_freeSlots =>
    intro i
    rw [accounts.free.mem_iff]
    exact and_congr_right fun _ => (rx.slots i).place_eq_free_iff
  case awaitingNodup => exact accounts.awaiting.nodup
  case awaiting =>
    intro i member
    obtain ⟨inside, place⟩ := (accounts.awaiting.mem_iff i).mp member
    refine ⟨inside, ((rx.slots i).place_eq_awaiting_iff.mp place).1, ?_⟩
    intro key entry
    exact ((accounts.hasEntry_iff key i).mp entry).2.2.1 member
  case hasEntry_iff => exact accounts.hasEntry_iff
  case entriesNodup =>
    intro first firstInside second secondInside firstUsed secondUsed sameValue
    have one : rx.flows.HasEntry _ _ := ⟨firstUsed, first, firstInside, rfl⟩
    have two : rx.flows.HasEntry _ _ := ⟨secondUsed, second, secondInside, rfl⟩
    have sameKey : (rx.flows.cells first).key = (rx.flows.cells second).key := by
      rw [← ((accounts.hasEntry_iff _ _).mp one).2.2.2,
        ← ((accounts.hasEntry_iff _ _).mp two).2.2.2, sameValue]
    obtain ⟨map, refines, _⟩ := accounts.flows
    exact refines.represents.valid.unique firstInside secondInside firstUsed sameKey
  case tuples =>
    intro i iInside j jInside iFree iAwaiting jFree jAwaiting sameIp samePeer sameLocal
    have sameKey : rx.flowKey i = rx.flowKey j := by
      rw [Receiver.flowKey, Receiver.flowKey, sameIp, samePeer, sameLocal]
    have one := (accounts.hasEntry_iff _ i).mpr ⟨iInside, iFree, iAwaiting, rfl⟩
    have two := (accounts.hasEntry_iff _ j).mpr ⟨jInside, jFree, jAwaiting, sameKey.symm⟩
    exact accounts.eq_of_hasEntry one two

end Accounting

/-- If every slot is free or holds a terminal connection that has been released,
the start of a poll leaves all slots free. -/
theorem InOrder.all_free {k : TcpStack} {mem : Memory}
    (inOrder : InOrder k ⟨.idle, mem⟩)
    (finished : ∀ i < k.maxConnections, (mem.rx.slots i).state = .free ∨
      (mem.rx.slots i).state = .closed ∧
        hasReleased (mem.tx.slots i).outFlags = true) :
    (beginPoll.run mem).2.rx.freeSlots.Perm (List.range k.maxConnections) := by
  have next : InOrder k ⟨.polling 0, (beginPoll.run mem).2⟩ :=
    inOrder.act (.task .beginPoll rfl)
  have reaped := beginPoll_reaps mem
  have accounts := next.accounts
  have noneScheduled : (beginPoll.run mem).2.rx.finalizeList = [] := by
    rw [reaped.finalizeList]
    exact inOrder.settled rfl
  refine (List.perm_ext_iff_of_nodup accounts.free.nodup List.nodup_range).mpr ?_
  intro i
  rw [List.mem_range, accounts.free.mem_iff, and_iff_left_iff_imp]
  intro inside
  rcases reaped.slots i with same | free
  · rcases finished i inside with free | ⟨closed, released⟩
    · rw [← same] at free
      exact (TcpConnection.place_eq_free_iff _).mpr free
    · -- a closed slot would still be scheduled or await a release it has
      exfalso
      rw [← same] at closed
      cases pending : ((beginPoll.run mem).2.rx.slots i).finalizePending with
      | true =>
          have listed := (accounts.finalizing.mem_iff i).mpr ⟨inside,
            (TcpConnection.place_eq_finalizing_iff _).mpr ⟨closed, pending⟩⟩
          rw [noneScheduled] at listed
          cases listed
      | false =>
          have listed := (accounts.awaiting.mem_iff i).mpr ⟨inside,
            (TcpConnection.place_eq_awaiting_iff _).mpr ⟨closed, pending⟩⟩
          have held := reaped.held i listed
          rw [reaped.tx, released] at held
          cases held
  · exact (TcpConnection.place_eq_free_iff _).mpr free

/-- Slot accounting.  In every state of every run the slots are partitioned into
free ones, ones that await their release, and ones with a flow entry.  The start
of a poll leaves no released slot waiting, so once every connection is terminal
and has been closed by the application, the next poll starts with all slots
free. -/
theorem slots_partitioned {k : TcpStack} {state : State} (reachable : Reachable k state) :
    Partitioned k state.memory.rx ∧
      (state.phase = .idle →
        (∀ i ∈ (beginPoll.run state.memory).2.rx.awaitingRelease,
          hasReleased ((beginPoll.run state.memory).2.tx.slots i).outFlags = false) ∧
        ((∀ i < k.maxConnections, (state.memory.rx.slots i).state = .free ∨
            (state.memory.rx.slots i).state = .closed ∧
              hasReleased (state.memory.tx.slots i).outFlags = true) →
          (beginPoll.run state.memory).2.rx.freeSlots.Perm
            (List.range k.maxConnections))) := by
  have inOrder := reachable.inOrder
  refine ⟨inOrder.accounts.partitioned, ?_⟩
  intro idle
  refine ⟨(beginPoll_reaps state.memory).held, ?_⟩
  intro finished
  obtain ⟨phase, mem⟩ := state
  obtain rfl : phase = .idle := idle
  exact inOrder.all_free finished

/-- The same after a poll that has received a SYN, whose slot is then in use. -/
theorem slots_partitioned_after_syn :
    let burst : Burst := ⟨[peerPacket 7 0 synFlag 1000 []], by decide⟩
    let mem := ((poll singleSlot burst ⟨fun _ => true, 1⟩).run
      (Memory.initial singleSlot)).2
    (mem.rx.slots 0).state = .synReceived ∧ Partitioned singleSlot mem.rx := by
  refine ⟨by decide, ?_⟩
  exact (slots_partitioned (run_poll singleSlot
    ⟨[peerPacket 7 0 synFlag 1000 []], by decide⟩ ⟨fun _ => true, 1⟩ Run.refl)).1

end DpdkWrapper.Tcp
