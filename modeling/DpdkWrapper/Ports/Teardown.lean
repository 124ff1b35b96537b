import DpdkWrapper.Ports.Runtime
import Mathlib.Data.List.Nodup

/-!
# Teardown order

At most one runtime object owns the EAL, whatever is moved where, and its ports are
exactly the devices that run.  Every call that brings something down is therefore made
in its place.
-/

namespace DpdkWrapper.Ports

/-! ## Ownership -/

/-- A runtime without the EAL has no ports. -/
def Runtime.Idle (runtime : Runtime) : Prop :=
  runtime.ownsEal = false ∧ runtime.ports = []

/-- The owner of the EAL, with ports that own these devices. -/
def Runtime.Active (devices : List (BitVec 16)) (runtime : Runtime) : Prop :=
  runtime.ownsEal = true ∧ runtime.ports.map Port.portId = devices ∧
    ∀ port ∈ runtime.ports, port.ownsDevice = true

/-- The live runtimes, of which one at most is active. -/
structure Owned (view : Nat → Option Runtime) (owner : Option Nat)
    (devices : List (BitVec 16)) : Prop where
  active : ∀ {object}, owner = some object →
    ∃ runtime, view object = some runtime ∧ runtime.Active devices
  idle : ∀ {object runtime}, owner ≠ some object → view object = some runtime → runtime.Idle
  nothing : owner = none → devices = []

/-- The owner after an object was moved. -/
def handOver (owner : Option Nat) (source target : Nat) : Option Nat :=
  if owner = some source then some target else owner

theorem isSome_handOver (owner : Option Nat) (source target : Nat) :
    (handOver owner source target).isSome = owner.isSome := by
  rw [handOver]
  split
  · rename_i rich
    rw [rich]
    rfl
  · rfl

namespace Owned

variable {view : Nat → Option Runtime} {owner : Option Nat} {devices : List (BitVec 16)}

theorem owns_iff (owned : Owned view owner devices) {object : Nat} {runtime : Runtime}
    (found : view object = some runtime) : runtime.ownsEal = true ↔ owner = some object := by
  by_cases rich : owner = some object
  · obtain ⟨same, foundSame, active⟩ := owned.active rich
    rw [found, Option.some.injEq] at foundSame
    rw [foundSame]
    exact iff_of_true active.1 rich
  · refine iff_of_false ?_ rich
    rw [(owned.idle rich found).1]
    exact Bool.false_ne_true

/-- A new owner, when there is none. -/
theorem gain (owned : Owned view none devices) (object : Nat) :
    Owned (Function.update view object (some ⟨true, []⟩)) (some object) [] where
  active := by
    rintro _ ⟨⟩
    refine ⟨⟨true, []⟩, Function.update_self _ _ _, rfl, rfl, ?_⟩
    rintro _ ⟨⟩
  idle := by
    intro other runtime poor found
    rw [Function.update_of_ne (fun same => poor (by rw [same]))] at found
    exact owned.idle (by rintro ⟨⟩) found
  nothing := by rintro ⟨⟩

/-- An object that owns nothing goes away. -/
theorem drop (owned : Owned view owner devices) {object : Nat} (poor : owner ≠ some object) :
    Owned (Function.update view object none) owner devices where
  active := by
    intro other rich
    have different : other ≠ object := by
      rintro rfl
      exact poor rich
    rw [Function.update_of_ne different]
    exact owned.active rich
  idle := by
    intro other runtime otherPoor found
    by_cases same : other = object
    · rw [same, Function.update_self] at found
      cases found
    · rw [Function.update_of_ne same] at found
      exact owned.idle otherPoor found
  nothing := owned.nothing

/-- The owner goes away. -/
theorem lose (owned : Owned view owner devices) {object : Nat} (rich : owner = some object) :
    Owned (Function.update view object none) none [] where
  active := by rintro _ ⟨⟩
  idle := by
    intro other runtime _ found
    by_cases same : other = object
    · rw [same, Function.update_self] at found
      cases found
    · rw [Function.update_of_ne same] at found
      apply owned.idle _ found
      rw [rich]
      rintro ⟨⟩
      exact same rfl
  nothing := fun _ => rfl

/-- An object is moved to a place where there is none. -/
theorem move (owned : Owned view owner devices) {source target : Nat} {other : Runtime}
    (found : view source = some other) (free : view target = none) :
    Owned (Function.update (Function.update view source (some ⟨false, []⟩)) target (some other))
      (handOver owner source target) devices := by
  have notTarget : owner ≠ some target := by
    intro rich
    obtain ⟨_, foundTarget, _⟩ := owned.active rich
    rw [free] at foundTarget
    cases foundTarget
  rw [handOver]
  constructor
  · intro object rich
    split at rich
    · rename_i sourceRich
      cases rich
      obtain ⟨same, foundSame, active⟩ := owned.active sourceRich
      rw [found, Option.some.injEq] at foundSame
      subst foundSame
      exact ⟨_, Function.update_self _ _ _, active⟩
    · rename_i poor
      have notHere : object ≠ target := by
        rintro rfl
        exact notTarget rich
      have notSource : object ≠ source := by
        rintro rfl
        exact poor rich
      rw [Function.update_of_ne notHere, Function.update_of_ne notSource]
      exact owned.active rich
  · intro object runtime poor foundObject
    by_cases here : object = target
    · subst here
      rw [Function.update_self, Option.some.injEq] at foundObject
      subst foundObject
      apply owned.idle _ found
      intro rich
      exact poor (if_pos rich)
    · rw [Function.update_of_ne here] at foundObject
      by_cases there : object = source
      · rw [there, Function.update_self, Option.some.injEq] at foundObject
        rw [← foundObject]
        exact ⟨rfl, rfl⟩
      · rw [Function.update_of_ne there] at foundObject
        apply owned.idle _ foundObject
        intro rich
        apply poor
        rw [if_neg, rich]
        rw [rich]
        rintro ⟨⟩
        exact there rfl
  · intro none
    split at none
    · cases none
    · exact owned.nothing none

/-- The owner gains a port. -/
theorem addPort (owned : Owned view owner devices) {object : Nat} {runtime : Runtime}
    (found : view object = some runtime) (rich : owner = some object) {port : Port}
    (active : port.ownsDevice = true) :
    Owned (Function.update view object (some { runtime with ports := runtime.ports ++ [port] }))
      owner (devices ++ [port.portId]) where
  active := by
    intro other otherRich
    rw [rich, Option.some.injEq] at otherRich
    subst otherRich
    obtain ⟨same, foundSame, eal, ports, actives⟩ := owned.active rich
    rw [found, Option.some.injEq] at foundSame
    subst foundSame
    refine ⟨_, Function.update_self _ _ _, eal, ?_, ?_⟩
    · rw [List.map_append, ports]
      rfl
    · intro member isMember
      rcases List.mem_append.mp isMember with old | new
      · exact actives member old
      · rw [List.mem_singleton.mp new]
        exact active
  idle := by
    intro other otherRuntime poor foundOther
    rw [Function.update_of_ne] at foundOther
    · exact owned.idle poor foundOther
    · rintro rfl
      exact poor rich
  nothing := by
    intro none
    rw [none] at rich
    cases rich

end Owned

/-! ## Objects in a list -/

/-- The live object at a place of a list. -/
def liveAt (objects : List (Option Runtime)) (object : Nat) : Option Runtime :=
  objects[object]?.join

theorem liveAt_set {objects : List (Option Runtime)} {object : Nat} {runtime : Runtime}
    (found : liveAt objects object = some runtime) (replacement : Option Runtime) :
    liveAt (objects.set object replacement) =
      Function.update (liveAt objects) object replacement := by
  have inside : object < objects.length := by
    by_contra beyond
    rw [liveAt, List.getElem?_eq_none (Nat.not_lt.mp beyond)] at found
    cases found
  funext other
  by_cases same : other = object
  · subst same
    rw [Function.update_self, liveAt, List.getElem?_set_self inside]
    rfl
  · rw [Function.update_of_ne same, liveAt, List.getElem?_set_ne (Ne.symm same)]
    rfl

theorem liveAt_length (objects : List (Option Runtime)) :
    liveAt objects objects.length = none := by
  rw [liveAt, List.getElem?_eq_none (Nat.le_refl _)]
  rfl

theorem liveAt_concat (objects : List (Option Runtime)) (last : Option Runtime) :
    liveAt (objects ++ [last]) = Function.update (liveAt objects) objects.length last := by
  funext other
  by_cases same : other = objects.length
  · rw [same, Function.update_self, liveAt, List.getElem?_append_right (Nat.le_refl _),
      Nat.sub_self]
    rfl
  · rw [Function.update_of_ne same, liveAt, liveAt]
    by_cases inside : other < objects.length
    · rw [List.getElem?_append_left inside]
    · have beyond : (objects ++ [last]).length ≤ other := by
        rw [List.length_append, List.length_singleton]
        omega
      rw [List.getElem?_eq_none beyond, List.getElem?_eq_none (Nat.not_lt.mp inside)]

/-! ## Calls in their place -/

namespace Lifecycle

/-- Destroying ports stops and closes their devices, one after the other. -/
theorem clearPorts {ports : List Port} (active : ∀ port ∈ ports, port.ownsDevice = true)
    (eal : Bool) :
    (Ports.clearPorts ports).foldlM next ⟨eal, ports.map Port.portId, []⟩ =
      some ⟨eal, [], []⟩ := by
  induction ports with
  | nil => rfl
  | cons port rest ih =>
      have owns := active port List.mem_cons_self
      have later := ih fun other member => active other (List.mem_cons_of_mem port member)
      rw [Ports.clearPorts, List.flatMap_cons, Port.destroy, if_pos owns, List.foldlM_append]
      have first : [DpdkCall.devStop port.portId, .devClose port.portId].foldlM next
          ⟨eal, (port :: rest).map Port.portId, []⟩ = some ⟨eal, rest.map Port.portId, []⟩ := by
        simp [next]
      rw [first]
      exact later

/-- A device is started exactly if it runs. -/
theorem isStarted_eq {log : List DpdkCall} {state : Lifecycle}
    (accepted : after log = some state) (portId : BitVec 16) :
    isStarted portId log = decide (portId ∈ state.started) := by
  induction log using List.reverseRecOn generalizing state with
  | nil =>
      cases accepted
      rfl
  | append_singleton log call ih =>
      rw [after_concat] at accepted
      obtain ⟨before, reached, stepped⟩ := Option.bind_eq_some_iff.mp accepted
      have distinct := (balanced_of_after reached).running
      have earlier := ih reached
      rw [isStarted] at earlier ⊢
      rw [List.foldl_append, earlier]
      cases call with
      | ealInit ok =>
          rw [next] at stepped
          split at stepped
          · cases stepped
          · cases stepped
            rfl
      | ealCleanup =>
          rw [next] at stepped
          split at stepped
          · rename_i idle
            cases stepped
            rw [idle]
            rfl
          · cases stepped
      | devStart device ok =>
          rw [next] at stepped
          split at stepped
          · cases stepped
          · cases stepped
            cases ok with
            | false => rfl
            | true =>
                change (decide (portId ∈ before.started) || device == portId) =
                  decide (portId ∈ before.started ++ [device])
                rw [Bool.eq_iff_iff, Bool.or_eq_true, decide_eq_true_iff, beq_iff_eq,
                  decide_eq_true_iff, List.mem_append, List.mem_singleton, @eq_comm _ device]
      | devStop device =>
          rw [next] at stepped
          split at stepped
          · cases stepped
            change (decide (portId ∈ before.started) && device != portId) =
              decide (portId ∈ before.started.erase device)
            rw [Bool.eq_iff_iff, Bool.and_eq_true, decide_eq_true_iff, bne_iff_ne,
              decide_eq_true_iff, distinct.mem_erase_iff, ne_comm, and_comm]
          · cases stepped
      | devClose device =>
          rw [next] at stepped
          split at stepped
          · cases stepped
            rfl
          · cases stepped

end Lifecycle

/-! ## Runs -/

/-- At most one runtime owns the EAL, the flag tells whether one does, and what is up is
what it and its ports own. -/
structure Orderly (process : Process) (owner : Option Nat) (devices : List (BitVec 16)) :
    Prop where
  owned : Owned (liveAt process.objects) owner devices
  flag : process.runtimeExists = owner.isSome
  accepted : Lifecycle.after process.log = some ⟨owner.isSome, devices, []⟩

namespace Orderly

variable {process : Process} {owner : Option Nat} {devices : List (BitVec 16)}

theorem start : Orderly .start none [] where
  owned :=
    { active := by rintro _ ⟨⟩
      idle := by
        intro object runtime _ found
        cases found
      nothing := fun _ => rfl }
  flag := rfl
  accepted := rfl

section

variable (orderly : Orderly process owner devices)
include orderly

/-- A construction: without an owner and with a working EAL it makes one, otherwise it
throws. -/
theorem construct (init : Bool) (reason : String) :
    ∃ owner devices, Orderly (process.construct init reason).2 owner devices := by
  rw [Process.construct]
  split
  · exact ⟨owner, devices, orderly⟩
  · rename_i free
    have alone : owner = none := by
      rw [orderly.flag] at free
      cases owner with
      | none => rfl
      | some object => exact absurd rfl free
    subst alone
    have nothing := orderly.owned.nothing rfl
    subst nothing
    split
    · refine ⟨none, [], orderly.owned, rfl, ?_⟩
      rw [Lifecycle.after_concat, orderly.accepted]
      rfl
    · refine ⟨some process.objects.length, [], ?_, rfl, ?_⟩
      · rw [liveAt_concat]
        exact orderly.owned.gain _
      · rw [Lifecycle.after_concat, orderly.accepted]
        rfl

/-- What an object that goes away leaves: its devices are down, and if it was the owner
the EAL is. -/
theorem release {object : Nat} {runtime : Runtime}
    (found : liveAt process.objects object = some runtime) :
    ∃ owner devices, Owned (Function.update (liveAt process.objects) object none) owner devices ∧
      (process.release runtime).2.runtimeExists = owner.isSome ∧
      Lifecycle.after ((process.release runtime).2.log ++
        clearPorts (process.release runtime).1) = some ⟨owner.isSome, devices, []⟩ := by
  have owns := orderly.owned.owns_iff found
  rw [Process.release]
  by_cases rich : owner = some object
  · obtain ⟨same, foundSame, _, ports, active⟩ := orderly.owned.active rich
    rw [found, Option.some.injEq] at foundSame
    subst foundSame
    refine ⟨none, [], orderly.owned.lose rich, ?_, ?_⟩
    · rw [if_pos (owns.mpr rich)]
      rfl
    · have up : Lifecycle.after process.log = some ⟨true, runtime.ports.map Port.portId, []⟩ := by
        rw [orderly.accepted, rich, ports]
        rfl
      rw [if_pos (owns.mpr rich)]
      change Lifecycle.after (process.log ++ clearPorts runtime.ports ++ [.ealCleanup] ++ []) = _
      rw [List.append_nil, Lifecycle.after_concat, Lifecycle.after_append, up, Option.bind_some,
        Lifecycle.clearPorts active]
      rfl
  · have poor := orderly.owned.idle rich found
    refine ⟨owner, devices, orderly.owned.drop rich, ?_, ?_⟩
    · rw [if_neg (mt owns.mp rich)]
      exact orderly.flag
    · rw [if_neg (mt owns.mp rich), poor.2]
      change Lifecycle.after (process.log ++ []) = _
      rw [List.append_nil]
      exact orderly.accepted

theorem destroy {object : Nat} {runtime : Runtime}
    (found : liveAt process.objects object = some runtime) :
    ∃ owner devices, Orderly (process.destroy object runtime) owner devices := by
  obtain ⟨owner, devices, owned, flag, accepted⟩ := orderly.release found
  refine ⟨owner, devices, ?_, flag, accepted⟩
  rw [Process.destroy, liveAt_set found]
  exact owned

theorem moveConstruct {source : Nat} {other : Runtime}
    (found : liveAt process.objects source = some other) :
    ∃ owner devices, Orderly (process.moveConstruct source other) owner devices := by
  refine ⟨handOver owner source process.objects.length, devices, ?_, ?_, ?_⟩
  · rw [Process.moveConstruct, liveAt_concat, liveAt_set found, List.length_set]
    exact orderly.owned.move found (liveAt_length process.objects)
  · rw [isSome_handOver]
    exact orderly.flag
  · rw [isSome_handOver]
    exact orderly.accepted

theorem moveAssign {target source : Nat} {runtime other : Runtime} (different : target ≠ source)
    (foundTarget : liveAt process.objects target = some runtime)
    (foundSource : liveAt process.objects source = some other) :
    ∃ owner devices,
      Orderly (process.moveAssign target source runtime other) owner devices := by
  obtain ⟨owner, devices, owned, flag, accepted⟩ := orderly.release foundTarget
  have stays (replacement : Option Runtime) :
      Function.update (liveAt process.objects) target replacement source = some other := by
    rw [Function.update_of_ne different.symm, foundSource]
  refine ⟨handOver owner source target, devices, ?_, ?_, ?_⟩
  · have moved := owned.move (stays none) (Function.update_self _ _ _)
    rw [Function.update_comm different, Function.update_idem] at moved
    rw [Process.moveAssign]
    dsimp only
    rw [liveAt_set, liveAt_set foundTarget]
    · rw [Function.update_comm different]
      exact moved
    · rw [liveAt_set foundTarget]
      exact stays _
  · rw [isSome_handOver]
    exact flag
  · rw [isSome_handOver]
    exact accepted

/-- `add_port` on the owner: it throws and nothing has come up, or the owner gains a
port and its device runs. -/
theorem addPort {object : Nat} {runtime : Runtime}
    (found : liveAt process.objects object = some runtime) (owns : runtime.ownsEal = true)
    (portId nRxQueues nTxQueues : BitVec 16) (pool : Bool) (env : SetupEnv) (reason : String) :
    ∃ devices, Orderly (process.addPort object runtime portId nRxQueues nTxQueues pool env
      reason).2 owner devices := by
  have rich := (orderly.owned.owns_iff found).mp owns
  rw [Process.addPort]
  split
  · exact ⟨devices, orderly⟩
  · have up : Lifecycle.after process.log = some ⟨true, devices, []⟩ := by
      rw [orderly.accepted, rich]
      rfl
    have started := Lifecycle.isStarted_eq up portId
    rcases Port.construct_cases process.serial portId nRxQueues nTxQueues env
      (isStarted portId process.log) with ⟨message, threw⟩ | ⟨down, outcome⟩
    · rw [threw]
      refine ⟨devices, orderly.owned, orderly.flag, ?_⟩
      dsimp only
      rw [List.append_nil]
      exact orderly.accepted
    · rw [down] at started
      have free : portId ∉ devices := of_decide_eq_false started.symm
      have starts (ok : Bool) : Lifecycle.after (process.log ++ [.devStart portId ok]) =
          some ⟨true, if ok then devices ++ [portId] else devices, []⟩ := by
        rw [Lifecycle.after_concat, up, Option.bind_some, Lifecycle.next]
        simp [free]
      rcases outcome with ⟨message, threw⟩ | constructed
      · rw [threw]
        refine ⟨devices, orderly.owned, orderly.flag, ?_⟩
        dsimp only
        rw [starts, rich]
        rfl
      · rw [constructed]
        refine ⟨devices ++ [portId], ?_, orderly.flag, ?_⟩
        · dsimp only
          rw [liveAt_set found]
          exact orderly.owned.addPort found rich rfl
        · change Lifecycle.after (process.log ++ [.devStart portId true] ++ []) = _
          rw [List.append_nil, starts, rich]
          rfl

/-- Every operation keeps the order. -/
theorem step {op : RuntimeOp} {thrown : Option String} {after : Process}
    (stepped : process.step op = some (thrown, after)) :
    ∃ owner devices, Orderly after owner devices := by
  cases op with
  | construct init reason =>
      have made := orderly.construct init reason
      rw [Process.step, Option.some.injEq] at stepped
      rwa [stepped] at made
  | moveConstruct source =>
      obtain ⟨other, found, stepped⟩ := Option.bind_eq_some_iff.mp stepped
      cases stepped
      exact orderly.moveConstruct found
  | moveAssign target source =>
      obtain ⟨runtime, foundTarget, stepped⟩ := Option.bind_eq_some_iff.mp stepped
      obtain ⟨other, foundSource, stepped⟩ := Option.bind_eq_some_iff.mp stepped
      split at stepped
      · cases stepped
        exact ⟨owner, devices, orderly⟩
      · cases stepped
        exact orderly.moveAssign ‹_› foundTarget foundSource
  | destroy object =>
      obtain ⟨runtime, found, stepped⟩ := Option.bind_eq_some_iff.mp stepped
      cases stepped
      exact orderly.destroy found
  | addPort object portId nRxQueues nTxQueues pool env reason =>
      obtain ⟨runtime, found, stepped⟩ := Option.bind_eq_some_iff.mp stepped
      split at stepped
      · have added := orderly.addPort found ‹_› portId nRxQueues nTxQueues pool env reason
        rw [Option.some.injEq] at stepped
        rw [stepped] at added
        exact ⟨owner, added⟩
      · cases stepped

theorem run {ops : List RuntimeOp} {after : Process} (ran : process.run ops = some after) :
    ∃ owner devices, Orderly after owner devices := by
  induction ops generalizing process owner devices with
  | nil =>
      cases ran
      exact ⟨owner, devices, orderly⟩
  | cons op rest ih =>
      rw [Process.run, List.foldlM_cons] at ran
      obtain ⟨next, stepped, ran⟩ := Option.bind_eq_some_iff.mp ran
      obtain ⟨⟨thrown, _⟩, performed, rfl⟩ := Option.map_eq_some_iff.mp stepped
      obtain ⟨owner, devices, kept⟩ := orderly.step performed
      exact ih kept ran

end

end Orderly

/-! ## What an operation does to the log -/

namespace Process

/-- This object is alive and owns the EAL. -/
def OwnsEal (process : Process) (object : Nat) : Prop :=
  ∃ runtime, process.runtime? object = some runtime ∧ runtime.ownsEal = true

/-- A port of some live runtime holds this device. -/
def Holds (process : Process) (portId : BitVec 16) : Prop :=
  ∃ object runtime, process.runtime? object = some runtime ∧
    ∃ port ∈ runtime.ports, port.portId = portId

/-- An operation that throws leaves the runtimes, their ports and the flag. -/
theorem step_of_thrown {process after : Process} {op : RuntimeOp} {message : String}
    (stepped : process.step op = some (some message, after)) :
    after.objects = process.objects ∧ after.runtimeExists = process.runtimeExists := by
  cases op with
  | construct init reason =>
      rw [step, construct] at stepped
      split at stepped
      · cases stepped
        exact ⟨rfl, rfl⟩
      · rename_i free
        split at stepped
        · cases stepped
          exact ⟨rfl, ((Bool.not_eq_true _).mp free).symm⟩
        · cases stepped
  | moveConstruct source =>
      obtain ⟨_, _, stepped⟩ := Option.bind_eq_some_iff.mp stepped
      cases stepped
  | moveAssign target source =>
      obtain ⟨_, _, stepped⟩ := Option.bind_eq_some_iff.mp stepped
      obtain ⟨_, _, stepped⟩ := Option.bind_eq_some_iff.mp stepped
      split at stepped <;> cases stepped
  | destroy object =>
      obtain ⟨_, _, stepped⟩ := Option.bind_eq_some_iff.mp stepped
      cases stepped
  | addPort object portId nRxQueues nTxQueues pool env reason =>
      obtain ⟨runtime, _, stepped⟩ := Option.bind_eq_some_iff.mp stepped
      split at stepped
      · rw [addPort] at stepped
        split at stepped
        · cases stepped
          exact ⟨rfl, rfl⟩
        · split at stepped
          · cases stepped
            exact ⟨rfl, rfl⟩
          · cases stepped
      · cases stepped

/-- Ports that go away do not clean up. -/
theorem cleanup_notMem_clearPorts (ports : List Port) : .ealCleanup ∉ clearPorts ports := by
  intro member
  obtain ⟨port, _, called⟩ := List.mem_flatMap.mp member
  rw [Port.destroy] at called
  split at called <;> simp at called

theorem count_cleanup_release {process : Process} {runtime : Runtime} :
    ((process.release runtime).2.log ++ clearPorts (process.release runtime).1).count .ealCleanup =
      process.log.count .ealCleanup + if runtime.ownsEal then 1 else 0 := by
  rw [List.count_append, List.count_eq_zero_of_not_mem (cleanup_notMem_clearPorts _), release]
  split
  · dsimp only
    rw [List.count_append, List.count_append,
      List.count_eq_zero_of_not_mem (cleanup_notMem_clearPorts _)]
    rfl
  · rfl

end Process

/-- An operation by which the owner of the EAL goes away: its destruction, or an
assignment from another object. -/
def RuntimeOp.Retires (process : Process) : RuntimeOp → Prop
  | .moveAssign target source => target ≠ source ∧ process.OwnsEal target
  | .destroy object => process.OwnsEal object
  | _ => False

/-- The EAL is cleaned up when its owner goes away, and then once. -/
theorem Process.count_cleanup_step {process after : Process} {op : RuntimeOp}
    {thrown : Option String} (stepped : process.step op = some (thrown, after)) :
    (op.Retires process →
      after.log.count .ealCleanup = process.log.count .ealCleanup + 1) ∧
    (¬ op.Retires process →
      after.log.count .ealCleanup = process.log.count .ealCleanup) := by
  cases op with
  | construct init reason =>
      refine ⟨False.elim, fun _ => ?_⟩
      rw [step, construct] at stepped
      split at stepped
      · cases stepped
        rfl
      · split at stepped
        · cases stepped
          rw [List.count_append]
          rfl
        · cases stepped
          rw [List.count_append]
          rfl
  | moveConstruct source =>
      obtain ⟨_, _, stepped⟩ := Option.bind_eq_some_iff.mp stepped
      cases stepped
      exact ⟨False.elim, fun _ => rfl⟩
  | moveAssign target source =>
      obtain ⟨runtime, found, stepped⟩ := Option.bind_eq_some_iff.mp stepped
      obtain ⟨other, _, stepped⟩ := Option.bind_eq_some_iff.mp stepped
      split at stepped
      · rename_i same
        cases stepped
        exact ⟨fun retires => absurd same retires.1, fun _ => rfl⟩
      · rename_i different
        cases stepped
        have counted := @count_cleanup_release process runtime
        constructor
        · rintro ⟨_, owner, foundOwner, owns⟩
          rw [found, Option.some.injEq] at foundOwner
          rw [← foundOwner] at owns
          rwa [if_pos owns] at counted
        · intro kept
          rwa [if_neg fun owns => kept ⟨different, runtime, found, owns⟩] at counted
  | destroy object =>
      obtain ⟨runtime, found, stepped⟩ := Option.bind_eq_some_iff.mp stepped
      cases stepped
      have counted := @count_cleanup_release process runtime
      constructor
      · rintro ⟨owner, foundOwner, owns⟩
        rw [found, Option.some.injEq] at foundOwner
        rw [← foundOwner] at owns
        rwa [if_pos owns] at counted
      · intro kept
        rwa [if_neg fun owns => kept ⟨runtime, found, owns⟩] at counted
  | addPort object portId nRxQueues nTxQueues pool env reason =>
      refine ⟨False.elim, fun _ => ?_⟩
      obtain ⟨runtime, _, stepped⟩ := Option.bind_eq_some_iff.mp stepped
      split at stepped
      · rw [addPort] at stepped
        split at stepped
        · cases stepped
          rfl
        · rcases Port.construct_cases process.serial portId nRxQueues nTxQueues env
            (isStarted portId process.log) with ⟨_, threw⟩ | ⟨_, ⟨_, threw⟩ | constructed⟩
          · rw [threw] at stepped
            cases stepped
            rw [List.append_nil]
          · rw [threw] at stepped
            cases stepped
            rw [List.count_append]
            rfl
          · rw [constructed] at stepped
            cases stepped
            rw [List.count_append, List.count_append]
            rfl
      · cases stepped

/-- Teardown order.  After any constructions, moves, destructions and additions of
ports: the flag is set exactly if one live runtime owns the EAL, and no two do; the calls
to DPDK were disciplined at every moment; an EAL is up exactly for the flag, and a device
runs exactly for a port of a live runtime.  From there, an operation that throws leaves
the runtimes with their ports and the flag, and the EAL is cleaned up exactly by the
operation by which its owner goes away. -/
theorem teardown_order {ops : List RuntimeOp} {process : Process}
    (ran : Process.start.run ops = some process) :
    (process.runtimeExists = true ↔ ∃! object, process.OwnsEal object) ∧
      (∀ first second, process.OwnsEal first → process.OwnsEal second → first = second) ∧
      Lifecycle.Disciplined process.log ∧
      process.log.count (.ealInit true) =
        process.log.count .ealCleanup + (if process.runtimeExists then 1 else 0) ∧
      (∀ portId, process.log.count (.devStop portId) = process.log.count (.devClose portId) ∧
        (process.Holds portId → process.log.count (.devStart portId true) =
          process.log.count (.devClose portId) + 1) ∧
        (¬ process.Holds portId → process.log.count (.devStart portId true) =
          process.log.count (.devClose portId))) ∧
      ∀ op thrown after, process.step op = some (thrown, after) →
        (∀ message, thrown = some message → after.objects = process.objects ∧
          after.runtimeExists = process.runtimeExists) ∧
        (op.Retires process →
          after.log.count .ealCleanup = process.log.count .ealCleanup + 1) ∧
        (¬ op.Retires process →
          after.log.count .ealCleanup = process.log.count .ealCleanup) := by
  obtain ⟨owner, devices, orderly⟩ := Orderly.start.run ran
  have owns (object : Nat) : process.OwnsEal object ↔ owner = some object := by
    constructor
    · rintro ⟨runtime, found, eal⟩
      exact (orderly.owned.owns_iff found).mp eal
    · intro rich
      obtain ⟨runtime, found, active⟩ := orderly.owned.active rich
      exact ⟨runtime, found, active.1⟩
  have held (portId : BitVec 16) : process.Holds portId ↔ portId ∈ devices := by
    constructor
    · rintro ⟨object, runtime, found, port, member, rfl⟩
      by_cases rich : owner = some object
      · obtain ⟨same, foundSame, _, ports, _⟩ := orderly.owned.active rich
        cases foundSame.symm.trans found
        rw [← ports]
        exact List.mem_map_of_mem member
      · rw [(orderly.owned.idle rich found).2] at member
        cases member
    · intro running
      cases owner with
      | none =>
          rw [orderly.owned.nothing rfl] at running
          cases running
      | some object =>
          obtain ⟨runtime, found, _, ports, _⟩ := orderly.owned.active rfl
          rw [← ports] at running
          exact ⟨object, runtime, found, List.mem_map.mp running⟩
  have balanced := Lifecycle.balanced_of_after orderly.accepted
  refine ⟨?_, ?_, Lifecycle.disciplined_of_after orderly.accepted, ?_, ?_, ?_⟩
  · simp only [owns, orderly.flag]
    cases owner with
    | none => simp
    | some object => exact iff_of_true rfl ⟨object, rfl, fun _ same => (Option.some.inj same).symm⟩
  · intro first second firstOwns secondOwns
    rw [owns] at firstOwns secondOwns
    rw [firstOwns, Option.some.injEq] at secondOwns
    exact secondOwns
  · rw [orderly.flag]
    exact balanced.inits
  · intro portId
    have starts := balanced.starts portId
    have stops : process.log.count (.devStop portId) = process.log.count (.devClose portId) :=
      balanced.stops portId
    rw [held, ← stops]
    refine ⟨rfl, ?_, ?_⟩
    · intro running
      rwa [decide_eq_true running] at starts
    · intro down
      rwa [decide_eq_false down] at starts
  · intro op thrown after stepped
    refine ⟨?_, Process.count_cleanup_step stepped⟩
    rintro message rfl
    exact Process.step_of_thrown stepped

/-- Setup calls that all succeed. -/
def workingSetup : SetupEnv :=
  ⟨true, true, true, true, true, fun _ => true, fun _ => true, true⟩

/-- A runtime with one port is moved, and the object it was moved into destroyed. -/
def movedAndDestroyed : List RuntimeOp :=
  [.construct true "", .addPort 0 3 1 1 false workingSetup "", .moveConstruct 0, .destroy 1]

theorem movedAndDestroyed_teardown :
    ∃ process, Process.start.run movedAndDestroyed = some process ∧
      process.log = [.ealInit true, .devStart 3 true, .devStop 3, .devClose 3, .ealCleanup] ∧
      Lifecycle.Disciplined process.log := by
  have log : (Process.start.run movedAndDestroyed).map Process.log =
      some [.ealInit true, .devStart 3 true, .devStop 3, .devClose 3, .ealCleanup] := by
    decide
  obtain ⟨process, ran, same⟩ := Option.map_eq_some_iff.mp log
  exact ⟨process, ran, same, (teardown_order ran).2.2.1⟩

end DpdkWrapper.Ports
