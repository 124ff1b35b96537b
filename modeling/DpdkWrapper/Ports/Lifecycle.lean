import DpdkWrapper.Ports.Port
import Mathlib.Data.List.Induction

/-!
# The order in which DPDK must be used

`rte_eal_init` comes first and `rte_eal_cleanup` last; a device is started in between,
and stopped and closed before the cleanup.  `Lifecycle.next` accepts a call only in its
place.  What a log of accepted calls then means is said by counting.
-/

namespace DpdkWrapper.Ports

/-- What is up: the EAL, the devices that run, in the order of their start, and those
that were stopped and not yet closed. -/
structure Lifecycle where
  eal : Bool
  started : List (BitVec 16)
  stopped : List (BitVec 16)
  deriving DecidableEq, Repr

namespace Lifecycle

def initial : Lifecycle := ⟨false, [], []⟩

/-- A call in its place, and what is up after it. -/
def next (state : Lifecycle) : DpdkCall → Option Lifecycle
  | .ealInit ok =>
      if state.eal then none else some { state with eal := ok }
  | .ealCleanup =>
      if state = ⟨true, [], []⟩ then some ⟨false, [], []⟩ else none
  | .devStart portId ok =>
      if ¬ state.eal ∨ portId ∈ state.started ∨ portId ∈ state.stopped then
        none
      else
        some { state with started := if ok then state.started ++ [portId] else state.started }
  | .devStop portId =>
      if portId ∈ state.started then
        some { state with
          started := state.started.erase portId
          stopped := state.stopped ++ [portId] }
      else
        none
  | .devClose portId =>
      if portId ∈ state.stopped then
        some { state with stopped := state.stopped.erase portId }
      else
        none

/-- The calls of a log, each in its place. -/
def after (log : List DpdkCall) : Option Lifecycle :=
  log.foldlM next initial

theorem after_append (log calls : List DpdkCall) :
    after (log ++ calls) = (after log).bind fun state => calls.foldlM next state := by
  rw [after, List.foldlM_append]
  rfl

theorem after_concat (log : List DpdkCall) (call : DpdkCall) :
    after (log ++ [call]) = (after log).bind fun state => state.next call := by
  rw [after_append]
  congr 1
  funext state
  rw [List.foldlM_cons]
  exact bind_pure _

/-! ## Counting -/

/-- One if the condition holds. -/
def one (condition : Bool) : Nat := if condition then 1 else 0

/-- The calls of a log are balanced with what is up. -/
structure Balanced (log : List DpdkCall) (state : Lifecycle) : Prop where
  running : state.started.Nodup
  closing : state.stopped.Nodup
  apart : ∀ {portId}, portId ∈ state.started → portId ∉ state.stopped
  inits : log.count (.ealInit true) = log.count .ealCleanup + one state.eal
  starts : ∀ portId, log.count (.devStart portId true) =
    log.count (.devStop portId) + one (decide (portId ∈ state.started))
  stops : ∀ portId, log.count (.devStop portId) =
    log.count (.devClose portId) + one (decide (portId ∈ state.stopped))

/-- A call that belongs to neither side leaves a balance. -/
theorem count_concat_eq {log : List DpdkCall} {left right : DpdkCall} {surplus : Nat}
    (call : DpdkCall) (even : log.count left = log.count right + surplus)
    (notLeft : call ≠ left) (notRight : call ≠ right) :
    (log ++ [call]).count left = (log ++ [call]).count right + surplus := by
  rw [List.count_append, List.count_append, even]
  simp [notLeft, notRight]

theorem count_concat_left {log : List DpdkCall} {left right : DpdkCall} {surplus : Nat}
    (even : log.count left = log.count right + surplus) (different : left ≠ right) :
    (log ++ [left]).count left = (log ++ [left]).count right + (surplus + 1) := by
  rw [List.count_append, List.count_append, even]
  simp [different, Nat.add_assoc]

theorem count_concat_right {log : List DpdkCall} {left right : DpdkCall} {surplus : Nat}
    (even : log.count left = log.count right + (surplus + 1)) (different : right ≠ left) :
    (log ++ [right]).count left = (log ++ [right]).count right + surplus := by
  rw [List.count_append, List.count_append, even]
  simp [different, Nat.add_comm surplus 1, Nat.add_assoc]

namespace Balanced

variable {log : List DpdkCall} {state after : Lifecycle}

theorem initial : Balanced [] initial := by
  refine ⟨List.nodup_nil, List.nodup_nil, ?_, rfl, fun _ => rfl, fun _ => rfl⟩
  rintro portId ⟨⟩

theorem ealInit (balanced : Balanced log state) (down : state.eal = false) (ok : Bool) :
    Balanced (log ++ [.ealInit ok]) { state with eal := ok } where
  running := balanced.running
  closing := balanced.closing
  apart := balanced.apart
  inits := by
    have inits := balanced.inits
    rw [down] at inits
    cases ok with
    | false => exact count_concat_eq _ inits (by rintro ⟨⟩) (by rintro ⟨⟩)
    | true => exact count_concat_left inits (by rintro ⟨⟩)
  starts := fun portId => count_concat_eq _ (balanced.starts portId) (by rintro ⟨⟩) (by rintro ⟨⟩)
  stops := fun portId => count_concat_eq _ (balanced.stops portId) (by rintro ⟨⟩) (by rintro ⟨⟩)

theorem ealCleanup (balanced : Balanced log ⟨true, [], []⟩) :
    Balanced (log ++ [.ealCleanup]) ⟨false, [], []⟩ where
  running := balanced.running
  closing := balanced.closing
  apart := balanced.apart
  inits := count_concat_right balanced.inits (by rintro ⟨⟩)
  starts := fun portId => count_concat_eq _ (balanced.starts portId) (by rintro ⟨⟩) (by rintro ⟨⟩)
  stops := fun portId => count_concat_eq _ (balanced.stops portId) (by rintro ⟨⟩) (by rintro ⟨⟩)

theorem devStart (balanced : Balanced log state) {device : BitVec 16}
    (notStarted : device ∉ state.started) (notStopped : device ∉ state.stopped) :
    Balanced (log ++ [.devStart device true])
      { state with started := state.started ++ [device] } where
  running := by
    apply List.Nodup.append balanced.running (List.nodup_singleton device)
    rwa [List.disjoint_singleton]
  closing := balanced.closing
  apart := by
    intro portId member
    rcases List.mem_append.mp member with old | new
    · exact balanced.apart old
    · rw [List.mem_singleton.mp new]
      exact notStopped
  inits := count_concat_eq _ balanced.inits (by rintro ⟨⟩) (by rintro ⟨⟩)
  starts := by
    intro portId
    by_cases same : device = portId
    · subst same
      have even := count_concat_left (balanced.starts device) (by rintro ⟨⟩)
      simpa [one, notStarted] using even
    · have even := count_concat_eq (.devStart device true) (balanced.starts portId)
        (by simpa using same) (by rintro ⟨⟩)
      simpa [Ne.symm same] using even
  stops := fun portId => count_concat_eq _ (balanced.stops portId) (by rintro ⟨⟩) (by rintro ⟨⟩)

/-- A start that failed leaves everything as it was. -/
theorem devStart_failed (balanced : Balanced log state) (device : BitVec 16) :
    Balanced (log ++ [.devStart device false]) state where
  running := balanced.running
  closing := balanced.closing
  apart := balanced.apart
  inits := count_concat_eq _ balanced.inits (by rintro ⟨⟩) (by rintro ⟨⟩)
  starts := fun portId => count_concat_eq _ (balanced.starts portId) (by rintro ⟨⟩) (by rintro ⟨⟩)
  stops := fun portId => count_concat_eq _ (balanced.stops portId) (by rintro ⟨⟩) (by rintro ⟨⟩)

theorem devStop (balanced : Balanced log state) {device : BitVec 16}
    (running : device ∈ state.started) :
    Balanced (log ++ [.devStop device])
      { state with
        started := state.started.erase device
        stopped := state.stopped ++ [device] } where
  running := balanced.running.erase device
  closing := by
    apply List.Nodup.append balanced.closing (List.nodup_singleton device)
    rw [List.disjoint_singleton]
    exact balanced.apart running
  apart := by
    intro portId member
    obtain ⟨different, still⟩ := balanced.running.mem_erase_iff.mp member
    rw [List.mem_append, List.mem_singleton, not_or]
    exact ⟨balanced.apart still, different⟩
  inits := count_concat_eq _ balanced.inits (by rintro ⟨⟩) (by rintro ⟨⟩)
  starts := by
    intro portId
    by_cases same : device = portId
    · subst same
      have starts := balanced.starts device
      rw [decide_eq_true running] at starts
      have even := count_concat_right starts (by rintro ⟨⟩)
      simpa [one, balanced.running.mem_erase_iff] using even
    · have even := count_concat_eq (.devStop device) (balanced.starts portId) (by rintro ⟨⟩)
        (by simpa using same)
      simpa [balanced.running.mem_erase_iff, Ne.symm same] using even
  stops := by
    intro portId
    by_cases same : device = portId
    · subst same
      have even := count_concat_left (balanced.stops device) (by rintro ⟨⟩)
      simpa [one, balanced.apart running] using even
    · have even := count_concat_eq (.devStop device) (balanced.stops portId)
        (by simpa using same) (by rintro ⟨⟩)
      simpa [Ne.symm same] using even

theorem devClose (balanced : Balanced log state) {device : BitVec 16}
    (closing : device ∈ state.stopped) :
    Balanced (log ++ [.devClose device])
      { state with stopped := state.stopped.erase device } where
  running := balanced.running
  closing := balanced.closing.erase device
  apart := fun member inStopped => balanced.apart member (List.mem_of_mem_erase inStopped)
  inits := count_concat_eq _ balanced.inits (by rintro ⟨⟩) (by rintro ⟨⟩)
  starts := fun portId => count_concat_eq _ (balanced.starts portId) (by rintro ⟨⟩) (by rintro ⟨⟩)
  stops := by
    intro portId
    by_cases same : device = portId
    · subst same
      have stops := balanced.stops device
      rw [decide_eq_true closing] at stops
      have even := count_concat_right stops (by rintro ⟨⟩)
      simpa [one, balanced.closing.mem_erase_iff] using even
    · have even := count_concat_eq (.devClose device) (balanced.stops portId) (by rintro ⟨⟩)
        (by simpa using same)
      simpa [balanced.closing.mem_erase_iff, Ne.symm same] using even

/-- A call in its place keeps the balance. -/
theorem next (balanced : Balanced log state) {call : DpdkCall}
    (accepted : state.next call = some after) : Balanced (log ++ [call]) after := by
  cases call with
  | ealInit ok =>
      rw [Lifecycle.next] at accepted
      split at accepted
      · cases accepted
      · cases accepted
        exact balanced.ealInit ((Bool.not_eq_true _).mp ‹_›) ok
  | ealCleanup =>
      rw [Lifecycle.next] at accepted
      split at accepted
      · rename_i idle
        cases accepted
        rw [idle] at balanced
        exact balanced.ealCleanup
      · cases accepted
  | devStart device ok =>
      rw [Lifecycle.next] at accepted
      split at accepted
      · cases accepted
      · rename_i free
        push Not at free
        cases accepted
        cases ok with
        | false => exact balanced.devStart_failed device
        | true => exact balanced.devStart free.2.1 free.2.2
  | devStop device =>
      rw [Lifecycle.next] at accepted
      split at accepted
      · cases accepted
        exact balanced.devStop ‹_›
      · cases accepted
  | devClose device =>
      rw [Lifecycle.next] at accepted
      split at accepted
      · cases accepted
        exact balanced.devClose ‹_›
      · cases accepted

end Balanced

/-- Every accepted log is balanced. -/
theorem balanced_of_after {log : List DpdkCall} {state : Lifecycle}
    (accepted : after log = some state) : Balanced log state := by
  induction log using List.reverseRecOn generalizing state with
  | nil =>
      cases accepted
      exact .initial
  | append_singleton log call ih =>
      rw [after_concat] at accepted
      obtain ⟨before, reached, stepped⟩ := Option.bind_eq_some_iff.mp accepted
      exact (ih reached).next stepped

/-- What the order of an accepted log means, at every moment: at most one EAL is up and
is cleaned up at most once; every device is stopped only after a start and closed only
after a stop, each at most once a start, and is not started again before; and when the
EAL is cleaned up, every device ever started has been stopped and closed. -/
structure Disciplined (log : List DpdkCall) : Prop where
  cleanups : ∀ {before}, before <+: log →
    before.count .ealCleanup ≤ before.count (.ealInit true) ∧
      before.count (.ealInit true) ≤ before.count .ealCleanup + 1
  devices : ∀ {before}, before <+: log → ∀ portId,
    before.count (.devClose portId) ≤ before.count (.devStop portId) ∧
      before.count (.devStop portId) ≤ before.count (.devStart portId true) ∧
      before.count (.devStart portId true) ≤ before.count (.devClose portId) + 1
  settled : ∀ {before}, before ++ [.ealCleanup] <+: log → ∀ portId,
    before.count (.devStart portId true) = before.count (.devStop portId) ∧
      before.count (.devStop portId) = before.count (.devClose portId)

theorem one_le (condition : Bool) : one condition ≤ 1 := by
  cases condition
  · exact Nat.zero_le 1
  · exact Nat.le_refl 1

/-- A device is not both running and waiting to be closed. -/
theorem Balanced.up_le {log : List DpdkCall} {state : Lifecycle} (balanced : Balanced log state)
    (portId : BitVec 16) :
    one (decide (portId ∈ state.started)) + one (decide (portId ∈ state.stopped)) ≤ 1 := by
  by_cases running : portId ∈ state.started
  · rw [decide_eq_true running, decide_eq_false (balanced.apart running)]
    exact Nat.le_refl 1
  · rw [decide_eq_false running]
    have bound := one_le (decide (portId ∈ state.stopped))
    change 0 + _ ≤ 1
    omega

/-- A part of an accepted log is accepted. -/
theorem after_isSome_of_prefix {before log : List DpdkCall} {state : Lifecycle}
    (part : before <+: log) (accepted : after log = some state) :
    ∃ earlier, after before = some earlier := by
  obtain ⟨rest, rfl⟩ := part
  rw [after_append] at accepted
  obtain ⟨earlier, reached, _⟩ := Option.bind_eq_some_iff.mp accepted
  exact ⟨earlier, reached⟩

theorem disciplined_of_after {log : List DpdkCall} {state : Lifecycle}
    (accepted : after log = some state) : Disciplined log := by
  constructor
  · intro before part
    obtain ⟨earlier, reached⟩ := after_isSome_of_prefix part accepted
    have inits := (balanced_of_after reached).inits
    have bound := one_le earlier.eal
    omega
  · intro before part portId
    obtain ⟨earlier, reached⟩ := after_isSome_of_prefix part accepted
    have balanced := balanced_of_after reached
    have starts := balanced.starts portId
    have stops := balanced.stops portId
    have bound := balanced.up_le portId
    omega
  · intro before part portId
    obtain ⟨_, reached⟩ := after_isSome_of_prefix part accepted
    rw [after_concat] at reached
    obtain ⟨earlier, reachedBefore, cleaned⟩ := Option.bind_eq_some_iff.mp reached
    rw [next] at cleaned
    split at cleaned
    · rename_i idle
      have balanced := balanced_of_after reachedBefore
      rw [idle] at balanced
      exact ⟨balanced.starts portId, balanced.stops portId⟩
    · cases cleaned

end Lifecycle

end DpdkWrapper.Ports
