import Mathlib.Data.List.Nodup

/-!
# Claiming queues of one kind

A port keeps its queues of one kind in a vector, with a flag for each queue and a
cursor.  `claim_next` advances the cursor over queues that are taken, `claim_by_id`
only sets a flag.  Both agree because everything below the cursor is taken.
-/

namespace DpdkWrapper.Ports

/-- The queues of one kind: the vectors `queues_` and `claimed_` and the cursor. -/
structure QueueSet (Q : Type) where
  queues : List Q
  claimed : List Bool
  cursor : Nat
  deriving DecidableEq, Repr

namespace QueueSet

variable {Q : Type}

/-- The loop of `claim_next`, which makes at most one round for each queue from the
cursor on.  `none` stands for a flag read out of bounds. -/
def skipClaimed (set : QueueSet Q) : Nat → Nat → Option Nat
  | 0, cursor => some cursor
  | rounds + 1, cursor =>
      if cursor < set.queues.length then do
        let taken ← set.claimed[cursor]?
        if taken then set.skipClaimed rounds (cursor + 1) else some cursor
      else
        some cursor

/-- `claim_next`; the inner `none` is the null pointer. -/
def claimNext (set : QueueSet Q) : Option (Option Q × QueueSet Q) := do
  let cursor ← set.skipClaimed (set.queues.length - set.cursor) set.cursor
  if cursor ≥ set.queues.length then
    some (none, { set with cursor })
  else do
    let queue ← set.queues[cursor]?
    some (some queue,
      { set with claimed := set.claimed.set cursor true, cursor := cursor + 1 })

/-- `claim_by_id`; an error is the text of the exception thrown. -/
def claimById (set : QueueSet Q) (queueId portId : BitVec 16) (kind : String) :
    Option (Except String (Option Q) × QueueSet Q) :=
  if queueId.toNat ≥ set.queues.length then
    some (.error ("Port " ++ toString portId.toNat ++ " has no " ++ kind ++ " queue " ++
      toString queueId.toNat), set)
  else do
    let taken ← set.claimed[queueId.toNat]?
    if taken then
      some (.ok none, set)
    else do
      let queue ← set.queues[queueId.toNat]?
      some (.ok (some queue), { set with claimed := set.claimed.set queueId.toNat true })

/-- The flags tell which queues have been handed out, and the cursor is not beyond the
first that has not. -/
structure Marks (set : QueueSet Q) (handed : List Q) : Prop where
  sized : set.claimed.length = set.queues.length
  distinct : set.queues.Nodup
  marks : ∀ {index : Nat} {queue : Q}, set.queues[index]? = some queue →
    (set.claimed[index]? = some true ↔ queue ∈ handed)
  below : ∀ {index : Nat} {queue : Q}, index < set.cursor →
    set.queues[index]? = some queue → queue ∈ handed

namespace Marks

variable {set : QueueSet Q} {handed : List Q}

/-- The flag of a queue can be read, and says whether it has been handed out. -/
theorem flag (marks : set.Marks handed) {index : Nat} {queue : Q}
    (found : set.queues[index]? = some queue) :
    ∃ taken, set.claimed[index]? = some taken ∧ (taken = true ↔ queue ∈ handed) := by
  have inside : index < set.claimed.length := by
    rw [marks.sized]
    exact (List.getElem?_eq_some_iff.mp found).1
  have read := List.getElem?_eq_getElem inside
  refine ⟨_, read, ?_⟩
  rw [← marks.marks found, read, Option.some.injEq]

/-- A queue handed out from elsewhere changes nothing here. -/
theorem elsewhere (marks : set.Marks handed) {queue : Q} (foreign : queue ∉ set.queues) :
    set.Marks (queue :: handed) := by
  have same {index : Nat} {other : Q} (found : set.queues[index]? = some other) :
      other ∈ queue :: handed ↔ other ∈ handed := by
    rw [List.mem_cons, or_iff_right]
    rintro rfl
    exact foreign (List.mem_of_getElem? found)
  refine ⟨marks.sized, marks.distinct, ?_, ?_⟩
  · intro index other found
    rw [same found]
    exact marks.marks found
  · intro index other before found
    rw [same found]
    exact marks.below before found

/-- Handing out a queue sets its flag; the cursor may move up to the first queue left. -/
theorem hand (marks : set.Marks handed) {index : Nat} {queue : Q}
    (found : set.queues[index]? = some queue) {cursor : Nat}
    (below : ∀ {other : Nat} {passed : Q}, other < cursor →
      set.queues[other]? = some passed → passed ∈ queue :: handed) :
    Marks { set with claimed := set.claimed.set index true, cursor } (queue :: handed) := by
  have inside : index < set.claimed.length := by
    rw [marks.sized]
    exact (List.getElem?_eq_some_iff.mp found).1
  refine ⟨?_, marks.distinct, ?_, below⟩
  · rw [List.length_set]
    exact marks.sized
  · intro other passed foundOther
    dsimp only at foundOther ⊢
    by_cases here : index = other
    · subst here
      rw [List.getElem?_set_self inside]
      rw [found, Option.some.injEq] at foundOther
      subst foundOther
      exact iff_of_true rfl List.mem_cons_self
    · have different : passed ≠ queue := by
        rintro rfl
        exact here ((List.getElem?_inj (List.getElem?_eq_some_iff.mp found).1
          marks.distinct).mp (found.trans foundOther.symm))
      rw [List.getElem?_set_ne here, marks.marks foundOther, List.mem_cons,
        or_iff_right different]

/-- The loop stops at the first queue that is left, or behind the last. -/
theorem skipClaimed (marks : set.Marks handed) :
    ∀ (rounds : Nat) {cursor : Nat}, set.queues.length ≤ cursor + rounds →
      (∀ {index : Nat} {queue : Q}, index < cursor → set.queues[index]? = some queue →
        queue ∈ handed) →
      ∃ stop, set.skipClaimed rounds cursor = some stop ∧
        (∀ {index : Nat} {queue : Q}, index < stop → set.queues[index]? = some queue →
          queue ∈ handed) ∧
        ∀ {queue : Q}, set.queues[stop]? = some queue → queue ∉ handed := by
  intro rounds
  induction rounds with
  | zero =>
      intro cursor enough below
      refine ⟨cursor, rfl, below, ?_⟩
      intro queue found
      rw [List.getElem?_eq_none (by omega)] at found
      cases found
  | succ rounds ih =>
      intro cursor enough below
      rw [QueueSet.skipClaimed]
      split
      · rename_i inside
        have found := List.getElem?_eq_getElem inside
        obtain ⟨taken, read, handedOut⟩ := marks.flag found
        rw [read, Option.bind_eq_bind, Option.bind_some]
        cases taken with
        | true =>
            rw [if_pos rfl]
            apply ih (by omega)
            intro index queue before foundQueue
            rcases Nat.lt_succ_iff_lt_or_eq.mp before with earlier | rfl
            · exact below earlier foundQueue
            · rw [found, Option.some.injEq] at foundQueue
              rw [← foundQueue]
              exact handedOut.mp rfl
        | false =>
            rw [if_neg Bool.false_ne_true]
            refine ⟨cursor, rfl, below, ?_⟩
            intro queue foundQueue inHand
            rw [found, Option.some.injEq] at foundQueue
            rw [← foundQueue] at inHand
            exact Bool.false_ne_true (handedOut.mpr inHand)
      · rename_i outside
        refine ⟨cursor, rfl, below, ?_⟩
        intro queue found
        rw [List.getElem?_eq_none (by omega)] at found
        cases found

end Marks

/-- What `claim_next` is for: it gives the first queue that is left, and nothing once
every queue has been handed out. -/
inductive ClaimsNext (set : QueueSet Q) (handed : List Q) : Option Q → QueueSet Q → Prop
  | exhausted {after : QueueSet Q} (all : ∀ queue ∈ set.queues, queue ∈ handed)
      (same : after.queues = set.queues) (marks : after.Marks handed) :
      ClaimsNext set handed none after
  | handed {after : QueueSet Q} {index : Nat} {queue : Q}
      (found : set.queues[index]? = some queue) (left : queue ∉ handed)
      (lowest : ∀ {lower : Nat} {passed : Q}, lower < index →
        set.queues[lower]? = some passed → passed ∈ handed)
      (same : after.queues = set.queues) (marks : after.Marks (queue :: handed)) :
      ClaimsNext set handed (some queue) after

namespace ClaimsNext

variable {set after : QueueSet Q} {handed : List Q} {result : Option Q}

theorem result_eq_none (claims : set.ClaimsNext handed result after) :
    result = none ↔ ∀ queue ∈ set.queues, queue ∈ handed := by
  cases claims with
  | exhausted all _ _ => exact iff_of_true rfl all
  | handed found left _ _ _ =>
      refine iff_of_false (by simp) ?_
      intro all
      exact left (all _ (List.mem_of_getElem? found))

theorem result_eq_some (claims : set.ClaimsNext handed result after) (queue : Q)
    (given : result = some queue) :
    ∃ q : Nat, set.queues[q]? = some queue ∧ queue ∉ handed ∧
      ∀ (lower : Nat) (passed : Q), lower < q → set.queues[lower]? = some passed →
        passed ∈ handed := by
  cases claims with
  | exhausted => cases given
  | handed found left lowest _ _ =>
      cases given
      exact ⟨_, found, left, fun _ _ => lowest⟩

end ClaimsNext

theorem Marks.claimNext {set : QueueSet Q} {handed : List Q} (marks : set.Marks handed) :
    ∃ result after, set.claimNext = some (result, after) ∧
      set.ClaimsNext handed result after := by
  obtain ⟨stop, skipped, below, left⟩ :=
    marks.skipClaimed (set.queues.length - set.cursor) (by omega) marks.below
  rw [QueueSet.claimNext, skipped, Option.bind_eq_bind, Option.bind_some]
  by_cases beyond : stop ≥ set.queues.length
  · rw [if_pos beyond]
    refine ⟨_, _, rfl, .exhausted ?_ rfl ⟨marks.sized, marks.distinct, marks.marks, below⟩⟩
    intro queue member
    obtain ⟨index, found⟩ := List.getElem?_of_mem member
    exact below (Nat.lt_of_lt_of_le (List.getElem?_eq_some_iff.mp found).1 beyond) found
  · have found := List.getElem?_eq_getElem (Nat.not_le.mp beyond)
    rw [if_neg beyond, found, Option.bind_eq_bind, Option.bind_some]
    refine ⟨_, _, rfl, .handed found (left found) below rfl (marks.hand found ?_)⟩
    intro other passed before foundOther
    rcases Nat.lt_succ_iff_lt_or_eq.mp before with earlier | rfl
    · exact List.mem_cons_of_mem _ (below earlier foundOther)
    · rw [found, Option.some.injEq] at foundOther
      rw [← foundOther]
      exact List.mem_cons_self

/-- What `claim_by_id` is for: it throws for a number without a queue, gives nothing for
a queue that has been handed out, and the queue otherwise. -/
inductive ClaimsById (set : QueueSet Q) (handed : List Q) (index : Nat) :
    Except String (Option Q) → QueueSet Q → Prop
  | throws {message : String} (outside : set.queues.length ≤ index) :
      ClaimsById set handed index (.error message) set
  | taken {queue : Q} (found : set.queues[index]? = some queue) (gone : queue ∈ handed) :
      ClaimsById set handed index (.ok none) set
  | handed {after : QueueSet Q} {queue : Q} (found : set.queues[index]? = some queue)
      (left : queue ∉ handed) (same : after.queues = set.queues)
      (marks : after.Marks (queue :: handed)) :
      ClaimsById set handed index (.ok (some queue)) after

namespace ClaimsById

variable {set after : QueueSet Q} {handed : List Q} {index : Nat}
  {result : Except String (Option Q)}

variable (claims : set.ClaimsById handed index result after)
include claims

theorem throws_iff : (∃ message, result = .error message) ↔ set.queues.length ≤ index := by
  cases claims with
  | throws outside => exact iff_of_true ⟨_, rfl⟩ outside
  | taken found _ => simp [(List.getElem?_eq_some_iff.mp found).1]
  | handed found _ _ _ => simp [(List.getElem?_eq_some_iff.mp found).1]

theorem unchanged (threw : ∃ message, result = .error message) : after = set := by
  cases claims with
  | throws => rfl
  | taken => rfl
  | handed =>
      obtain ⟨_, impossible⟩ := threw
      cases impossible

theorem result_eq_none : result = .ok none ↔ ∃ queue ∈ handed, set.queues[index]? = some queue := by
  cases claims with
  | throws outside => simp [List.getElem?_eq_none outside]
  | taken found gone => exact iff_of_true rfl ⟨_, gone, found⟩
  | handed found left _ _ =>
      refine iff_of_false (by simp) ?_
      rintro ⟨queue, gone, at_⟩
      rw [found, Option.some.injEq] at at_
      exact left (by rwa [at_])

theorem result_eq_some (queue : Q) :
    result = .ok (some queue) ↔ set.queues[index]? = some queue ∧ queue ∉ handed := by
  cases claims with
  | throws outside => simp [List.getElem?_eq_none outside]
  | taken found gone =>
      refine iff_of_false (by simp) ?_
      rintro ⟨at_, left⟩
      rw [found, Option.some.injEq] at at_
      exact left (by rwa [← at_])
  | handed found left _ _ =>
      rw [found]
      constructor
      · intro given
        cases given
        exact ⟨rfl, left⟩
      · rintro ⟨at_, _⟩
        cases at_
        rfl

end ClaimsById

theorem Marks.claimById {set : QueueSet Q} {handed : List Q} (marks : set.Marks handed)
    (queueId portId : BitVec 16) (kind : String) :
    ∃ result after, set.claimById queueId portId kind = some (result, after) ∧
      set.ClaimsById handed queueId.toNat result after := by
  rw [QueueSet.claimById]
  split
  · rename_i outside
    exact ⟨_, _, rfl, .throws outside⟩
  · rename_i inside
    have found := List.getElem?_eq_getElem (Nat.not_le.mp inside)
    obtain ⟨taken, read, handedOut⟩ := marks.flag found
    rw [read, Option.bind_eq_bind, Option.bind_some]
    cases taken with
    | true =>
        rw [if_pos rfl]
        exact ⟨_, _, rfl, .taken found (handedOut.mp rfl)⟩
    | false =>
        rw [if_neg Bool.false_ne_true, found, Option.bind_eq_bind, Option.bind_some]
        refine ⟨_, _, rfl, .handed found ?_ rfl (marks.hand found ?_)⟩
        · intro inHand
          exact Bool.false_ne_true (handedOut.mpr inHand)
        · intro other passed before foundOther
          exact List.mem_cons_of_mem _ (marks.below before foundOther)

end QueueSet

end DpdkWrapper.Ports
