import DpdkWrapper.Tcp.Isolation

/-!
# Runs with one client left

A run is reduced to one client by leaving out the packets that bring no segment of it and the
calls on the connections of others.  The connections that remain can be in other slots and
have other ids, so calls on them are renamed.

The client looks the same in both runs, because both are the same inputs to it.  The only
input that depends on others is whether a SYN gets a slot.  In the reduced run all slots in
use are the client's, and a slot is free as soon as one is in the full run.
-/

namespace DpdkWrapper.Tcp

open Threads Wire

/-! ## Reduced runs -/

/-- The same call on another id. -/
def Call.on (conn : ConnId) : Call → Call
  | sendable _ => .sendable conn
  | sendSpace _ => .sendSpace conn
  | send _ bytes env => .send conn bytes env
  | close _ env => .close conn env

/-- A packet brings a segment of the client. -/
def Tuple.ofPacket (k : TcpStack) (tuple : Tuple) (packet : RxPacket) : Bool :=
  match decode k packet.frame packet.contiguous with
  | some (.segment seg) => tuple.ofSegment seg
  | _ => false

/-- What becomes of an action in the run that is reduced to a client, if anything. -/
inductive Reduction (k : TcpStack) (tuple : Tuple) (mem other : Memory) :
    Action → Option Action → Prop
  | beginPoll : Reduction k tuple mem other (.task .beginPoll) (some (.task .beginPoll))
  | endPoll (env : FlushEnv) :
      Reduction k tuple mem other (.task (.endPoll env)) (some (.task (.endPoll env)))
  | packet (packet : RxPacket) (own : tuple.ofPacket k packet = true) :
      Reduction k tuple mem other (.task (.packet packet)) (some (.task (.packet packet)))
  | otherPacket (packet : RxPacket) (foreign : tuple.ofPacket k packet = false) :
      Reduction k tuple mem other (.task (.packet packet)) none
  /-- A call on one of the client's connections, by the id that it has in the reduced run. -/
  | call {number : Nat} {conn : ConnId} (call : Call)
      (here : (tuple.names mem.rx.log)[number]? = some call.conn)
      (there : (tuple.names other.rx.log)[number]? = some conn) :
      Reduction k tuple mem other (.call call) (some (.call (call.on conn)))
  | otherCall (call : Call) {owner : Tuple} (theirs : call.conn ∈ owner.names mem.rx.log)
      (foreign : call.conn ∉ tuple.names mem.rx.log) :
      Reduction k tuple mem other (.call call) none
  /-- A call with an id that nobody has been given. -/
  | stray (call : Call) (unknown : ∀ owner : Tuple, call.conn ∉ owner.names mem.rx.log) :
      Reduction k tuple mem other (.call call) (some (.call call))

/-- A run whose actions all satisfy `ok`, and the same run reduced to a client. -/
inductive Reduces (k : TcpStack) (tuple : Tuple) (ok : State → Action → Prop) :
    State → State → Prop
  | start : Reduces k tuple ok (State.initial k) (State.initial k)
  | drop {state state' other : State} {action : Action} (reduces : Reduces k tuple ok state other)
      (act : Act k state action state') (allowed : ok state action)
      (reduction : Reduction k tuple state.memory other.memory action none) :
      Reduces k tuple ok state' other
  | keep {state state' other other' : State} {action action' : Action}
      (reduces : Reduces k tuple ok state other) (act : Act k state action state')
      (allowed : ok state action)
      (reduction : Reduction k tuple state.memory other.memory action (some action'))
      (act' : Act k other action' other') : Reduces k tuple ok state' other'

/-- A SYN of the client is refused because no slot is free. -/
def turnsAway (k : TcpStack) (tuple : Tuple) (mem : Memory) : Action → Bool
  | .task (.packet packet) =>
      match decode k packet.frame packet.contiguous with
      | some (.segment seg) =>
          tuple.ofSegment seg && requests k seg && (mem.slotOf tuple).isNone &&
            mem.rx.freeSlots.isEmpty
      | _ => false
  | _ => false

/-- No fault, and a slot for every SYN of the client. -/
structure Served (k : TcpStack) (tuple : Tuple) (state : State) (action : Action) : Prop where
  smooth : FaultFree state action
  slot : turnsAway k tuple state.memory action = false

/-! ## The reduced run on its own -/

section

variable {k : TcpStack} {tuple : Tuple} {ok : State → Action → Prop}
  {state state' other : State} {action : Action}

theorem Reduces.reachable (reduces : Reduces k tuple ok state other) :
    Reachable k state ∧ Reachable k other := by
  induction reduces with
  | start => exact ⟨.refl, .refl⟩
  | drop _ act _ _ ih => exact ⟨ih.1.step act trivial, ih.2⟩
  | keep _ act _ _ act' ih => exact ⟨ih.1.step act trivial, ih.2.step act' trivial⟩

/-- A burst is not longer when packets are left out. -/
def Phase.Within : Phase → Phase → Prop
  | idle, idle => True
  | polling first, polling second => first ≤ second
  | _, _ => False

theorem Phase.Within.next {phase full full' : Phase} {task : Task} (within : phase.Within full)
    (enabled : full.next task = some full') :
    ∃ phase', phase.next task = some phase' ∧ phase'.Within full' := by
  cases next_cases enabled with
  | beginPoll =>
      cases phase with
      | polling count => exact within.elim
      | idle => exact ⟨_, rfl, Nat.le_refl 0⟩
  | packet packet more =>
      cases phase with
      | idle => exact within.elim
      | polling count => exact ⟨_, if_pos (Nat.lt_of_le_of_lt within more), Nat.succ_le_succ within⟩
  | endPoll env =>
      cases phase with
      | idle => exact within.elim
      | polling count => exact ⟨_, rfl, trivial⟩

theorem Reduces.phase (reduces : Reduces k tuple ok state other) :
    other.phase.Within state.phase := by
  induction reduces with
  | start => trivial
  | @drop state state' other action _ act _ reduction ih =>
      cases act with
      | call => exact ih
      | @task phase phase' mem task enabled =>
          obtain ⟨packet⟩ := reduction
          cases Phase.next_cases enabled with
          | packet _ more =>
              revert ih
              cases other.phase with
              | idle => exact id
              | polling count => exact Nat.le_succ_of_le
  | keep _ act _ reduction act' ih =>
      cases act with
      | call =>
          cases reduction <;> cases act' <;> exact ih
      | task task enabled =>
          obtain ⟨next, enabled', within⟩ := ih.next enabled
          cases reduction <;> cases act' with
          | task _ enabled'' =>
              cases enabled'.symm.trans enabled''
              exact within

/-- A step on a packet of the client, or on no packet, leaves its tuple in the slots. -/
theorem SessionStep.ofConnection {session session' : Session}
    (step : SessionStep k session action session')
    (own : ∀ packet, action = .task (.packet packet) → tuple.ofPacket k packet = true)
    (before : session.conn.state ≠ .free → tuple.ofConnection session.conn = true)
    (live : session'.conn.state ≠ .free) : tuple.ofConnection session'.conn = true := by
  cases step with
  | idle => exact before live
  | @opened packet seg peerMss decoded =>
      have mine := own packet rfl
      rw [Tuple.ofPacket, decoded] at mine
      exact mine
  | @segment packet seg _ _ unfree =>
      have same := congrArg (fun identity : TcpConnection.Identity =>
        tuple.is identity.peerIp identity.peerPort identity.localPort)
        (session.processSegment_continues seg k).identity
      exact same.trans (before unfree)
  | freed => exact absurd rfl live
  | call _ step => cases step <;> exact before live
  | stray => exact before live

/-- In the reduced run, only the client has slots. -/
theorem Reduces.ofConnection (reduces : Reduces k tuple ok state other) (i : Nat)
    (live : (other.memory.rx.slots i).state ≠ .free) :
    tuple.ofConnection (other.memory.rx.slots i) = true := by
  induction reduces with
  | start => exact absurd rfl live
  | drop _ _ _ _ ih => exact ih live
  | @keep _ _ other other' _ action' reduces _ _ reduction act' ih =>
      have step := act'.session reduces.reachable.2.regular i
      refine step.ofConnection (fun packet same => ?_) ih live
      subst same
      cases reduction with
      | packet _ own => exact own

end

/-! ## Slots in both runs -/

section

variable {k : TcpStack} {tuple : Tuple} {state : State}

/-- How many of a client's accepted connections still have their slots. -/
def Client.holding (client : Client) : Nat :=
  client.statuses.countP (· != .gone)

/-- The ids of these connections. -/
def Memory.held (mem : Memory) (tuple : Tuple) : List ConnId :=
  (tuple.names mem.rx.log).filter (mem.status · != .gone)

theorem holding_eq (mem : Memory) : (mem.client tuple).holding = (mem.held tuple).length := by
  rw [Client.holding, Memory.client, List.countP_map, List.countP_eq_length_filter]
  rfl

variable (reachable : Reachable k state) (sparse : FewOpensEach state.memory)
include reachable sparse

/-- A slot that is free is none of them. -/
theorem holding_lt (free : state.memory.rx.freeSlots ≠ []) :
    (state.memory.client tuple).holding < k.maxConnections := by
  obtain ⟨idx, listed⟩ := List.exists_mem_of_ne_nil _ free
  obtain ⟨inside, unused⟩ :=
    (reachable.inOrder.accounts.partitioned.mem_freeSlots idx).mp listed
  have current : ∀ conn ∈ state.memory.held tuple, conn ∈ tuple.names state.memory.rx.log ∧
      (state.memory.rx.slots conn.slot).generation = conn.generation ∧
      (state.memory.rx.slots conn.slot).state ≠ .free := by
    intro conn member
    obtain ⟨given, held⟩ := List.mem_filter.mp member
    rw [bne_iff_ne] at held
    refine ⟨given, ?_, fun free => held (status_of_free free)⟩
    by_contra stale
    exact held (status_of_stale stale)
  have nodup : ((state.memory.held tuple).map ConnId.slot).Nodup :=
    ((names_nodup reachable sparse).filter _).map_on fun one first two second same =>
      eq_of_slot same (current two second).2.1 (current one first).2.1
  have apart : idx ∉ (state.memory.held tuple).map ConnId.slot := by
    intro member
    obtain ⟨conn, held, rfl⟩ := List.mem_map.mp member
    exact (current conn held).2.2 unused
  have shorter := length_le_of_nodup (List.nodup_cons.mpr ⟨apart, nodup⟩)
    (List.forall_mem_cons.mpr ⟨inside, List.forall_mem_map.mpr fun conn held =>
      names_inside reachable (current conn held).1⟩)
  rw [List.length_cons, List.length_map] at shorter
  rw [holding_eq]
  exact shorter

/-- If only the client has slots, none is free and its packets go to none, then connections of
it that have ended hold them all. -/
theorem le_holding (full : state.memory.rx.freeSlots = [])
    (nowhere : state.memory.slotOf tuple = none)
    (alone : ∀ i, (state.memory.rx.slots i).state ≠ .free →
      tuple.ofConnection (state.memory.rx.slots i) = true) :
    k.maxConnections ≤ (state.memory.client tuple).holding := by
  have accounts := reachable.inOrder.accounts
  have held : (List.range k.maxConnections).map (fun i => (state.memory.session i).connId) ⊆
      state.memory.held tuple := by
    intro conn member
    obtain ⟨i, listed, rfl⟩ := List.mem_map.mp member
    have inside := List.mem_range.mp listed
    have live : (state.memory.rx.slots i).state ≠ .free := by
      intro free
      have member := (accounts.partitioned.mem_freeSlots i).mpr ⟨inside, free⟩
      rw [full] at member
      cases member
    have awaiting : i ∈ state.memory.rx.awaitingRelease := by
      by_contra unawaited
      exact (slotOf_eq_none accounts).mp nowhere i ⟨inside, live, unawaited, alone i live⟩
    have told : events (state.memory.session i).history ≠ [] := by
      intro silent
      have none := (EventHistory.reachable reachable i).invariant.told
      rw [silent] at none
      have early : (state.memory.rx.slots i).state = .synReceived := none.of_nil live
      rw [(accounts.partitioned.awaiting i awaiting).2.1] at early
      cases early
    refine List.mem_filter.mpr
      ⟨(connId_mem_names_iff reachable sparse).mpr ⟨told, alone i live⟩, ?_⟩
    rw [status_of_awaiting rfl live awaiting]
    rfl
  have nodup : ((List.range k.maxConnections).map
      fun i => (state.memory.session i).connId).Nodup :=
    List.nodup_range.map fun _ _ same => congrArg ConnId.slot same
  have longer := (List.subperm_of_subset nodup held).length_le
  rw [List.length_map, List.length_range] at longer
  rw [holding_eq]
  exact longer

end

/-! ## The client in both runs -/

section

variable {k : TcpStack} {tuple : Tuple} {ok : State → Action → Prop}
  {state state' other : State} {action action' : Action}

theorem opensFor_own {mem : Memory} {seg : Segment} (accounts : Accounting k mem.rx)
    (own : tuple.ofSegment seg = true) :
    mem.opensFor k seg =
      ((mem.slotOf tuple).isNone && requests k seg && !mem.rx.freeSlots.isEmpty) := by
  have small : k.maxConnections ≤ FlowTable.npos :=
    Nat.le_trans (Nat.le_of_lt k.maxConnections_lt) (by decide)
  obtain ⟨peerIp, peerPort, localPort⟩ := Tuple.is_iff.mp own
  rw [Memory.opensFor, Memory.slotOf, Tuple.key, peerIp, peerPort, localPort]
  congr 2
  rcases accounts.flows.find small (FlowTable.key_ne_zero tuple.peerIp_ne_zero tuple.peerPort
    tuple.localPort) with ⟨idx, found, known, _⟩ | ⟨absent, _⟩
  · rw [found, Option.filter_some, if_pos (bne_iff_ne.mpr known)]
    exact beq_false_of_ne fun same => known (Option.some.inj same)
  · rw [absent, Option.filter_some, if_neg (by simp)]
    exact beq_self_eq_true _

/-- What is left out is nothing to the client. -/
theorem Reduction.input_none {mem mem' : Memory} (reduction : Reduction k tuple mem mem' action none) :
    action.input? k tuple mem = none := by
  cases reduction with
  | otherPacket packet foreign =>
      rw [Tuple.ofPacket] at foreign
      rw [Action.input?]
      split
      · rename_i decoded
        rw [decoded] at foreign
        exact if_neg (by simp [foreign])
      · rfl
  | otherCall call theirs foreign =>
      cases call with
      | send | close => exact if_neg foreign
      | _ => rfl

/-- The number of an id. -/
theorem idxOf_of_getElem? {entries : List ConnId} (nodup : entries.Nodup) {number : Nat}
    {conn : ConnId} (here : entries[number]? = some conn) :
    conn ∈ entries ∧ entries.idxOf conn = number := by
  obtain ⟨inside, rfl⟩ := List.getElem?_eq_some_iff.mp here
  exact ⟨List.getElem_mem inside, nodup.idxOf_getElem number inside⟩

theorem Reduces.freeSlots (reduces : Reduces k tuple ok state other)
    (sparse : FewOpensEach state.memory) (sparse' : FewOpensEach other.memory)
    (same : other.memory.client tuple = state.memory.client tuple)
    (nowhere : other.memory.slotOf tuple = none) (free : state.memory.rx.freeSlots ≠ []) :
    other.memory.rx.freeSlots ≠ [] := by
  intro full
  have fewer : (state.memory.client tuple).holding < k.maxConnections :=
    holding_lt reduces.reachable.1 sparse free
  have more := le_holding reduces.reachable.2 sparse' full nowhere reduces.ofConnection
  rw [same] at more
  omega

/-- What is kept is the same input in both runs. -/
theorem Reduces.input (reduces : Reduces k tuple ok state other)
    (sparse : FewOpensEach state.memory) (sparse' : FewOpensEach other.memory)
    (same : other.memory.client tuple = state.memory.client tuple)
    (served : Served k tuple state action)
    (reduction : Reduction k tuple state.memory other.memory action (some action')) :
    FaultFree other action' ∧
      action'.input? k tuple other.memory = action.input? k tuple state.memory := by
  obtain ⟨reachable, reachable'⟩ := reduces.reachable
  cases reduction with
  | beginPoll => exact ⟨trivial, rfl⟩
  | endPoll env => exact ⟨served.smooth, rfl⟩
  | packet packet own =>
      refine ⟨trivial, ?_⟩
      have slot := served.slot
      rw [turnsAway] at slot
      rw [Tuple.ofPacket] at own
      rw [Action.input?, Action.input?]
      split
      · rename_i seg decoded
        simp only [decoded] at own slot
        have links : (other.memory.slotOf tuple).isNone = (state.memory.slotOf tuple).isNone := by
          have link := congrArg (·.link.isNone) same
          simpa [Memory.client] using link
        have room : (state.memory.slotOf tuple).isNone = true → requests k seg = true →
            other.memory.rx.freeSlots.isEmpty = false ∧
              state.memory.rx.freeSlots.isEmpty = false := by
          intro nowhere requested
          rw [own, nowhere, requested] at slot
          rw [nowhere, Option.isNone_iff_eq_none] at links
          have free : state.memory.rx.freeSlots ≠ [] := by simpa using slot
          exact ⟨by simpa using reduces.freeSlots sparse sparse' same links free, slot⟩
        have opens : other.memory.opensFor k seg = state.memory.opensFor k seg := by
          rw [opensFor_own reachable.inOrder.accounts own,
            opensFor_own reachable'.inOrder.accounts own, links]
          by_cases asks : (state.memory.slotOf tuple).isNone = true ∧ requests k seg = true
          · rw [(room asks.1 asks.2).1, (room asks.1 asks.2).2]
          · rw [← Bool.and_eq_true_iff, Bool.not_eq_true] at asks
            rw [asks, Bool.false_and, Bool.false_and]
        rw [opens]
      · rfl
  | call call here there =>
      obtain ⟨given, first⟩ := idxOf_of_getElem? (names_nodup reachable sparse) here
      obtain ⟨given', second⟩ := idxOf_of_getElem? (names_nodup reachable' sparse') there
      cases call with
      | send | close =>
          refine ⟨⟨tuple, given'⟩, (if_pos given').trans (Eq.trans ?_ (if_pos given).symm)⟩
          rw [second, ← first]
          rfl
      | _ => exact ⟨⟨tuple, given'⟩, rfl⟩
  | stray call unknown =>
      obtain ⟨owner, given⟩ := served.smooth
      exact absurd given (unknown owner)

/-- The run lemma: both runs are the same inputs to the client. -/
theorem Reduces.feeds (reduces : Reduces k tuple (Served k tuple) state other)
    (sparse : FewOpensEach state.memory) (sparse' : FewOpensEach other.memory) :
    ∃ inputs, Feeds k tuple inputs state ∧ Feeds k tuple inputs other := by
  induction reduces with
  | start => exact ⟨[], .start, .start⟩
  | drop reduces act served reduction ih =>
      obtain ⟨inputs, full, reduced⟩ := ih (act.sparse reduces.reachable.1 sparse) sparse'
      have next := full.step act served.smooth
      rw [reduction.input_none, Option.toList_none, List.append_nil] at next
      exact ⟨inputs, next, reduced⟩
  | keep reduces act served reduction act' ih =>
      have before := act.sparse reduces.reachable.1 sparse
      have before' := act'.sparse reduces.reachable.2 sparse'
      obtain ⟨inputs, full, reduced⟩ := ih before before'
      have same := (reduced.client before').trans (full.client before).symm
      obtain ⟨smooth, input⟩ := reduces.input before before' same served reduction
      have next' := reduced.step act' smooth
      rw [input] at next'
      exact ⟨_, full.step act served.smooth, next'⟩

/-- Leaving out the other clients changes nothing for a client: it looks the same in both runs,
and the reduced run goes on whenever the full one does. -/
theorem reduced_runs_look_alike (reduces : Reduces k tuple (Served k tuple) state other)
    (sparse : FewOpensEach state.memory) (sparse' : FewOpensEach other.memory) :
    other.memory.client tuple = state.memory.client tuple ∧
      ∀ action state', Act k state action state' → Served k tuple state action →
        ∃ other', Reduces k tuple (Served k tuple) state' other' := by
  obtain ⟨inputs, full, reduced⟩ := reduces.feeds sparse sparse'
  have same := (reduced.client sparse').trans (full.client sparse).symm
  refine ⟨same, fun action state' act served => ?_⟩
  cases act with
  | @task phase phase' mem task enabled =>
      obtain ⟨next, enabled', _⟩ := reduces.phase.next enabled
      have keep (reduction : Reduction k tuple mem other.memory (.task task) (some (.task task))) :=
        reduces.keep (.task task enabled) served reduction (.task task enabled')
      cases task with
      | beginPoll => exact ⟨_, keep .beginPoll⟩
      | endPoll env => exact ⟨_, keep (.endPoll env)⟩
      | packet packet =>
          cases own : tuple.ofPacket k packet with
          | true => exact ⟨_, keep (.packet packet own)⟩
          | false => exact ⟨_, reduces.drop (.task _ enabled) served (.otherPacket packet own)⟩
  | @call phase mem call =>
      obtain ⟨owner, given⟩ := served.smooth
      by_cases own : call.conn ∈ tuple.names mem.rx.log
      · obtain ⟨number, inside, here⟩ := List.getElem_of_mem own
        have long : number < (tuple.names other.memory.rx.log).length := by
          have lengths := congrArg (·.statuses.length) same
          simp only [Memory.client, List.length_map] at lengths
          rwa [lengths]
        exact ⟨_, reduces.keep (.call call) served
          (.call call (List.getElem?_eq_some_iff.mpr ⟨inside, here⟩) (List.getElem?_eq_getElem long))
          (.call _)⟩
      · exact ⟨_, reduces.drop (.call call) served (.otherCall call given own)⟩

/-- The client that asks second is accepted in the second slot, and in the first one when it is
alone.  What the application sends to it is the same. -/
theorem reduced_runs_look_alike_of_send :
    ∃ state other : State, Reduces twoSlots peerTuple (Served twoSlots peerTuple) state other ∧
      other.memory.client peerTuple = state.memory.client peerTuple ∧
      peerTuple.names state.memory.rx.log = [⟨1, 1⟩] ∧
      peerTuple.names other.memory.rx.log = [⟨0, 1⟩] ∧
      (state.memory.client peerTuple).sent.length = 1 := by
  have initial : Reduces twoSlots peerTuple (Served twoSlots peerTuple) _ _ := .start
  have begun := initial.keep (.task .beginPoll rfl) ⟨trivial, rfl⟩ .beginPoll (.task .beginPoll rfl)
  have first := begun.drop (.task (.packet (otherPacket 50 0 synFlag 500 [])) rfl)
    ⟨trivial, by decide +kernel⟩ (.otherPacket _ (by decide +kernel))
  have asked := first.keep (.task (.packet (peerPacket 7 0 synFlag 1000 [])) rfl)
    ⟨trivial, by decide +kernel⟩ (.packet _ (by decide +kernel)) (.task _ rfl)
  have accepted := asked.keep (.task (.packet (peerPacket 8 1 ackFlag 1000 [])) rfl)
    ⟨trivial, by decide +kernel⟩ (.packet _ (by decide +kernel)) (.task _ rfl)
  have sent := accepted.keep (.call (.send ⟨1, 1⟩ [1, 2] ⟨fun _ _ => true, fun _ => 1⟩))
    ⟨⟨peerTuple, by decide +kernel⟩, rfl⟩
    (@Reduction.call _ _ _ _ 0 ⟨0, 1⟩ _ (by decide +kernel) (by decide +kernel)) (.call _)
  refine ⟨_, _, sent, (reduced_runs_look_alike sent (.of_length ?_) (.of_length ?_)).1, ?_, ?_, ?_⟩
  all_goals decide +kernel

/-- Nothing fails in the pool and the queues. -/
def Action.Unfailing : Action → Prop
  | .task (.packet packet) => packet.pool = true
  | .task (.endPoll env) => env.Unfailing
  | .call (.send _ _ env) => (∀ burst n, env.pool burst n = true) ∧
      ∀ burst, maxBurst ≤ env.take burst
  | .call (.close _ env) => ∀ attempt, env.pool attempt = true ∧ env.takes attempt = true
  | _ => True

/-- A call with an id that nobody has been given does nothing in the full run, where the other
client is in the first slot.  In the reduced run it closes the client's connection: alone, the
client has opened the first slot twice. -/
theorem stray_close_hits_the_reduced_run :
    ∃ state other : State,
      Reduces twoSlots peerTuple
        (fun state action =>
          action.Unfailing ∧ turnsAway twoSlots peerTuple state.memory action = false) state other ∧
      FewOpensEach state.memory ∧ FewOpensEach other.memory ∧
      (state.memory.client peerTuple).sent = [] ∧
      (other.memory.client peerTuple).sent.length = 1 := by
  have initial : Reduces twoSlots peerTuple (fun state action =>
      action.Unfailing ∧ turnsAway twoSlots peerTuple state.memory action = false) _ _ := .start
  have begun := initial.keep (.task .beginPoll rfl) ⟨trivial, rfl⟩ .beginPoll (.task .beginPoll rfl)
  have first := begun.drop (.task (.packet (otherPacket 50 0 synFlag 500 [])) rfl)
    ⟨rfl, by decide +kernel⟩ (.otherPacket _ (by decide +kernel))
  have asked := first.keep (.task (.packet (peerPacket 7 0 synFlag 1000 [])) rfl)
    ⟨rfl, by decide +kernel⟩ (.packet _ (by decide +kernel)) (.task _ rfl)
  have reset := asked.keep (.task (.packet (peerPacket 8 0 rstFlag 1000 [])) rfl)
    ⟨rfl, by decide +kernel⟩ (.packet _ (by decide +kernel)) (.task _ rfl)
  have again := reset.keep (.task (.packet (peerPacket 7 0 synFlag 1000 [])) rfl)
    ⟨rfl, by decide +kernel⟩ (.packet _ (by decide +kernel)) (.task _ rfl)
  have accepted := again.keep (.task (.packet (peerPacket 8 1 ackFlag 1000 [])) rfl)
    ⟨rfl, by decide +kernel⟩ (.packet _ (by decide +kernel)) (.task _ rfl)
  have closed := accepted.keep (.call (.close ⟨0, 2⟩ ⟨fun _ => true, fun _ => true⟩))
    ⟨fun _ => ⟨rfl, rfl⟩, rfl⟩ (.stray _ fun owner given => ?_) (.call _)
  · refine ⟨_, _, closed, .of_length ?_, .of_length ?_, ?_, ?_⟩
    all_goals decide +kernel
  · obtain ⟨event, member, _⟩ := Tuple.mem_names.mp given
    refine absurd member (List.eq_nil_iff_forall_not_mem.mp ?_ event)
    decide +kernel

end

end DpdkWrapper.Tcp
