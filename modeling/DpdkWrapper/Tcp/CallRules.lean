import DpdkWrapper.Tcp.ConnIds
import DpdkWrapper.Tcp.Transmission

/-!
# Rules for calls under interference

A call on an id first looks it up, with three loads.  From then on either the id has been
released or the application holds the connection, and then the slot stays this connection's
until `close` gives it up.  `CallObligations` collects what remains to be shown about the stores
of `send` and `close`; `Call.code_meets` is the rule for whole calls.

The three loads are not atomic together, and the peer may close the connection between any two
of them.  What is known between them, `CallContext`, therefore only says what an accepted id can
rely on at any time.  `ReadObligations` is the part of the obligations that the calls without a
store have, `sendable` and `send_space`.
-/

namespace DpdkWrapper.Tcp

open Threads Wire

/-- What is known while a call on an accepted id is under way. -/
structure CallContext (k : TcpStack) (conn : ConnId) (mem : Memory) : Prop where
  ids : IdInvariant k conn.slot mem
  accepted : Accepted mem conn

/-- The slot is guarded, and every ACK may be recorded. -/
def Terms.guarding (i : Nat) : Terms where
  guarded := (· = i)
  acks _ _ := True

/-- Steps of the inbound thread while the slot has been opened less than 2^32 - 1 times. -/
def Interferes (i : Nat) : Memory → Memory → Prop :=
  Relation.ReflTransGen fun mem mem' =>
    InStep (.guarding i) mem mem' ∧ FewOpens i mem'

section Survival

variable {k : TcpStack} {conn : ConnId} {first second third : Memory}

/-- What a call keeps knowing while the inbound thread makes steps. -/
structure ContextKept (k : TcpStack) (conn : ConnId) (mem later : Memory) : Prop where
  known : CallContext k conn mem → CallContext k conn later
  released : Released mem conn → Released later conn
  opens : (mem.view conn.slot).opens ≤ (later.view conn.slot).opens
  owns : HeldAs mem conn → HeldAs later conn
  identity : HeldAs mem conn →
    (later.rx.slots conn.slot).identity = (mem.rx.slots conn.slot).identity
  out : HeldAs mem conn → later.tx.slots conn.slot = mem.tx.slots conn.slot
  unsendable : CallContext k conn mem → Unsendable mem conn → Unsendable later conn
  refused : .sendableReturned conn false ∈ later.tx.log →
    .sendableReturned conn false ∈ mem.tx.log

theorem ContextKept.refl (mem : Memory) : ContextKept k conn mem mem :=
  ⟨id, id, Nat.le_refl _, id, fun _ => rfl, fun _ => rfl, fun _ => id, id⟩

/-- What a call knows survives any number of steps of the other thread. -/
theorem ContextKept.trans (left : ContextKept k conn first second)
    (right : ContextKept k conn second third) : ContextKept k conn first third where
  known known := right.known (left.known known)
  released released := right.released (left.released released)
  opens := Nat.le_trans left.opens right.opens
  owns owns := right.owns (left.owns owns)
  identity owns := (right.identity (left.owns owns)).trans (left.identity owns)
  out owns := (right.out (left.owns owns)).trans (left.out owns)
  unsendable known unsendable :=
    right.unsendable (left.known known) (left.unsendable known unsendable)
  refused refused := left.refused (right.refused refused)

/-- A step of the inbound thread keeps what a call knows, since the slot is not reopened while
the id is held. -/
theorem InStep.survives {terms : Terms} (guarded : terms.guarded conn.slot)
    (step : InStep terms first second) (few : FewOpens conn.slot second) :
    ContextKept k conn first second where
  known known := ⟨known.ids.inStep guarded step few, step.accepted_mono known.accepted⟩
  released := (step.released_iff conn).mpr
  opens := (step.slot conn.slot).opens_le
  owns owns := owns.inStep guarded step
  identity owns := (step.spares guarded owns).identity
  out owns := (step.spares guarded owns).out
  unsendable known unsendable := unsendable.inStep known.ids guarded step
  refused := (step.entry_iff (by simp)).mp

theorem Interferes.survives (interferes : Interferes conn.slot first second) :
    ContextKept k conn first second := by
  induction interferes with
  | refl => exact .refl _
  | tail _ step ih => exact ih.trans (step.1.survives rfl step.2)

end Survival

/-! ## Looking up an id -/

section Looking

variable {k : TcpStack} {conn : ConnId} {protocol : Protocol Memory} {good : Memory → Prop}

/-- What a call may know besides, as far as its loads and its results are concerned. -/
structure ReadObligations (k : TcpStack) (conn : ConnId) (protocol : Protocol Memory)
    (good : Memory → Prop) : Prop where
  survives : ∀ mem later, protocol.rely mem later → ContextKept k conn mem later
  stable : ∀ mem later, CallContext k conn mem → protocol.rely mem later →
    good mem → good later
  returned : ∀ mem entry, good mem → entry.Proper conn mem →
    protocol.guarantee mem ⟨mem.rx, mem.tx.note entry⟩ ∧
      good ⟨mem.rx, mem.tx.note entry⟩

/-- What a call knows after a load. -/
theorem ReadObligations.later (looks : ReadObligations k conn protocol good) {mem later : Memory}
    (known : CallContext k conn mem) (holds : good mem) (moves : protocol.rely mem later) :
    CallContext k conn later ∧ good later ∧ ContextKept k conn mem later :=
  have survives := looks.survives _ _ moves
  ⟨survives.known known, looks.stable _ _ known moves holds, survives⟩

/-- A call's own steps keep what it knows. -/
theorem CallContext.ownStep {mem mem' : Memory} (known : CallContext k conn mem)
    (step : OwnStep conn mem mem') : CallContext k conn mem' :=
  ⟨known.ids.ownStep step, (step.frame.accepted_iff conn).mpr known.accepted⟩

theorem CallContext.note {mem : Memory} {entry : TxEntry} (known : CallContext k conn mem)
    (proper : entry.Proper conn mem) : CallContext k conn ⟨mem.rx, mem.tx.note entry⟩ :=
  known.ownStep (.returned entry proper)

theorem CallContext.released_or_owns {mem : Memory} (known : CallContext k conn mem) :
    Released mem conn ∨ HeldAs mem conn := by
  by_cases released : Released mem conn
  · exact Or.inl released
  · exact Or.inr (known.ids.owns known.accepted released)

theorem CallContext.released_of_ne {mem : Memory} (known : CallContext k conn mem)
    (other : (mem.rx.slots conn.slot).generation ≠ conn.generation) :
    Released mem conn := by
  rcases known.released_or_owns with released | owns
  · exact released
  · exact absurd owns.generation other

/-- What `lookup` has found out. -/
def Found (conn : ConnId) (found : Bool) (mem : Memory) : Prop :=
  (found = true → HeldAs mem conn) ∧ (found = false → Released mem conn)

/-- The answer of the lookup stays right. -/
theorem Found.stable {found : Bool} {mem later : Memory} (result : Found conn found mem)
    (survives : ContextKept k conn mem later) : Found conn found later :=
  ⟨fun yes => survives.owns (result.1 yes), fun no => survives.released (result.2 no)⟩

/-- `lookup`'s second load, between two loads of the generation: if the flags are not
released, then the application holds the connection, or the slot has a newer one. -/
theorem CallContext.flags {mem : Memory} (known : CallContext k conn mem) :
    if hasReleased (mem.tx.slots conn.slot).outFlags then
      Released mem conn
    else
      HeldAs mem conn ∨ (Released mem conn ∧
        conn.generation.toNat < (mem.view conn.slot).opens) := by
  rcases known.released_or_owns with released | owns
  · split
    · exact released
    · rename_i unmarked
      obtain ⟨older, marked⟩ := known.ids.released conn rfl released
      refine Or.inr ⟨released, Nat.lt_of_le_of_ne older ?_⟩
      intro same
      refine unmarked (marked ?_).2
      exact BitVec.eq_of_toNat_eq (same.trans known.ids.stage.number.symm)
  · rw [if_neg]
    · exact Or.inl owns
    · exact Bool.eq_false_iff.mp owns.held.2

theorem CallContext.inside {mem : Memory} (known : CallContext k conn mem)
    (unreleased : ¬Released mem conn) : conn.slot < k.maxConnections := by
  refine Nat.lt_of_not_le fun beyond => ?_
  rcases known.released_or_owns with released | owns
  · exact unreleased released
  · have free := (known.ids.outside beyond).1
    exact (TcpState.accepted_iff.mp owns.held.1).1 free

/-- What interference does not change. -/
def Persistent (k : TcpStack) (conn : ConnId) (holds : Memory → Prop) : Prop :=
  ∀ mem later, CallContext k conn mem → ContextKept k conn mem later →
    holds mem → holds later

/-- Record a result that is true, and return it. -/
theorem ReadObligations.records (looks : ReadObligations k conn protocol good) {α : Type}
    {entry : TxEntry}
    (value : α) {said after : Memory → Prop} (lasting : Persistent k conn said)
    (proper : ∀ later, said later → entry.Proper conn later)
    (noted : ∀ later, said later → after ⟨later.rx, later.tx.note entry⟩)
    (lasting' : Persistent k conn after) {mem : Memory} (known : CallContext k conn mem)
    (holds : good mem) (held : said mem) :
    (returning entry value).Meets protocol
      (fun result later => result = value ∧ CallContext k conn later ∧ good later ∧ after later)
      mem := by
  refine Program.meets_modify_bind fun later moves _ => ?_
  have survives := looks.survives _ _ moves
  have known' := survives.known known
  have held' := lasting _ _ known survives held
  obtain ⟨guaranteed, holds'⟩ :=
    looks.returned later entry (looks.stable _ _ known moves holds) (proper later held')
  refine ⟨guaranteed, Program.meets_done fun final further => ?_⟩
  have stillKnown := known'.note (proper later held')
  have survives := looks.survives _ _ further
  exact ⟨rfl, survives.known stillKnown, looks.stable _ _ stillKnown further holds',
    lasting' _ _ stillKnown survives (noted later held')⟩

/-- The same, where the result is not needed any more. -/
theorem ReadObligations.recordsOnly (looks : ReadObligations k conn protocol good) {α : Type}
    {entry : TxEntry}
    (value : α) {said : Memory → Prop} (lasting : Persistent k conn said)
    (proper : ∀ later, said later → entry.Proper conn later) {mem : Memory}
    (known : CallContext k conn mem) (holds : good mem) (held : said mem) :
    (returning entry value).Meets protocol (fun _ later => CallContext k conn later ∧ good later)
      mem := by
  have anything : Persistent k conn fun _ => True := fun _ _ _ _ _ => trivial
  refine (looks.records value lasting proper (fun _ _ => trivial) anything known holds held).mono ?_
  exact fun _ _ after => ⟨after.2.1, after.2.2.1⟩

/-- What survives interference may be known besides. -/
theorem ReadObligations.and (looks : ReadObligations k conn protocol good) {extra : Memory → Prop}
    (lasting : Persistent k conn extra)
    (kept : ∀ mem entry, extra mem → extra ⟨mem.rx, mem.tx.note entry⟩) :
    ReadObligations k conn protocol fun mem => good mem ∧ extra mem where
  survives := looks.survives
  stable _ _ known moves := fun ⟨holds, more⟩ =>
    ⟨looks.stable _ _ known moves holds, lasting _ _ known (looks.survives _ _ moves) more⟩
  returned mem entry := fun ⟨holds, more⟩ proper =>
    have ⟨guaranteed, after⟩ := looks.returned mem entry holds proper
    ⟨guaranteed, after, kept mem entry more⟩

theorem HeldAs.lasting : Persistent k conn fun mem => HeldAs mem conn :=
  fun _ _ _ survives owns => survives.owns owns

theorem HeldAs.note {mem : Memory} (owns : HeldAs mem conn) (entry : TxEntry) :
    HeldAs ⟨mem.rx, mem.tx.note entry⟩ conn :=
  ⟨owns.generation, owns.held⟩

theorem Released.note {mem : Memory} (released : Released mem conn) (entry : TxEntry) :
    Released ⟨mem.rx, mem.tx.note entry⟩ conn :=
  List.mem_cons_of_mem _ released

/-- What `sendable` has found out. -/
def SendableAnswer (conn : ConnId) (result : Bool) (mem : Memory) : Prop :=
  (result = true → HeldAs mem conn ∧
    hasFinSent (mem.tx.slots conn.slot).outFlags = false) ∧
  (result = false → Unsendable mem conn)

/-- A positive answer has not been preceded by a negative one. -/
def NotRefusedBefore (conn : ConnId) (result : Bool) (mem : Memory) : Prop :=
  SendableAnswer conn result mem ∧
    (result = true → .sendableReturned conn false ∉ mem.tx.log)

/-- What `sendable` has answered stays justified. -/
theorem SendableAnswer.lasting (result : Bool) :
    Persistent k conn (SendableAnswer conn result) := by
  intro mem later known survives judged
  constructor
  · intro yes
    obtain ⟨owns, unsent⟩ := judged.1 yes
    rw [survives.out owns]
    exact ⟨survives.owns owns, unsent⟩
  · exact fun no => survives.unsendable known (judged.2 no)

theorem NotRefusedBefore.lasting (result : Bool) :
    Persistent k conn (NotRefusedBefore conn result) :=
  fun mem later known survives upheld =>
    ⟨SendableAnswer.lasting result mem later known survives upheld.1,
      fun yes refused => upheld.2 yes (survives.refused refused)⟩

theorem SendableAnswer.note {result : Bool} {mem : Memory}
    (judged : SendableAnswer conn result mem)
    (entry : TxEntry) : SendableAnswer conn result ⟨mem.rx, mem.tx.note entry⟩ := by
  constructor
  · exact fun yes => ⟨(judged.1 yes).1.note entry, (judged.1 yes).2⟩
  · exact fun no => (judged.2 no).imp (·.note entry) fun ⟨current, reason⟩ =>
      ⟨⟨current.generation, current.taken⟩, reason⟩

/-- The application goes on holding the connection, with the same outbound fields. -/
theorem ReadObligations.holding (looks : ReadObligations k conn protocol good)
    (fields : OutboundFields) :
    ReadObligations k conn protocol fun mem =>
      good mem ∧ HeldAs mem conn ∧ mem.tx.slots conn.slot = fields := by
  refine looks.and ?_ fun mem entry ⟨owns, same⟩ => ⟨owns.note entry, same⟩
  exact fun mem later _ survives ⟨owns, same⟩ =>
    ⟨survives.owns owns, (survives.out owns).trans same⟩

/-! ## Loads -/

section Loads

variable (looks : ReadObligations k conn protocol good) {mem : Memory}
  (known : CallContext k conn mem) (holds : good mem)
include looks known holds

/-- A lookup that has found its answer. -/
theorem ReadObligations.settled {found : Bool} (result : Found conn found mem) :
    (Program.done found : Code Bool).Meets protocol
      (fun found later => CallContext k conn later ∧ good later ∧ Found conn found later)
      mem := by
  refine Program.meets_done fun later moves => ?_
  have survives := looks.survives _ _ moves
  exact ⟨survives.known known, looks.stable _ _ known moves holds, result.stable survives⟩

/-- The lookup of an id: three loads, and the slot may be closed by the peer between any two of
them. -/
theorem findSlot_meets :
    (findSlot k conn).Meets protocol
      (fun found later => CallContext k conn later ∧ good later ∧ Found conn found later)
      mem := by
  have missing : ∀ later, Released later conn → Found conn false later :=
    fun later released => ⟨by rintro ⟨⟩, fun _ => released⟩
  unfold findSlot
  split
  case isTrue beyond =>
    refine looks.settled known holds (missing _ ?_)
    by_contra unreleased
    exact absurd (known.inside unreleased) (Nat.not_lt_of_le beyond)
  case isFalse =>
    refine Program.meets_read_bind fun first moves => ?_
    have known₁ := (looks.survives _ _ moves).known known
    have holds₁ := looks.stable _ _ known moves holds
    split
    case isTrue other =>
      exact looks.settled known₁ holds₁ (missing _ (known₁.released_of_ne (bne_iff_ne.mp other)))
    case isFalse =>
      refine Program.meets_read_bind fun second moves => ?_
      have known₂ := (looks.survives _ _ moves).known known₁
      have holds₂ := looks.stable _ _ known₁ moves holds₁
      refine Program.meets_read_bind fun third moves => ?_
      have survives := looks.survives _ _ moves
      have known₃ := survives.known known₂
      refine looks.settled known₃ (looks.stable _ _ known₂ moves holds₂) ?_
      have flags := known₂.flags
      split at flags
      case isTrue marked =>
        rw [marked, Bool.not_true, Bool.and_false]
        exact missing _ (survives.released flags)
      case isFalse unmarked =>
        rw [Bool.eq_false_of_not_eq_true unmarked, Bool.not_false, Bool.and_true]
        refine ⟨fun same => ?_, fun other => known₃.released_of_ne (beq_eq_false_iff_ne.mp other)⟩
        rcases flags with owns | ⟨_, older⟩
        · exact survives.owns owns
        · -- the slot has had a newer connection, so the generation has moved on
          have number := known₃.ids.stage.number
          have newer := Nat.lt_of_lt_of_le older survives.opens
          rw [← number, show (third.view conn.slot).conn.generation = conn.generation from
            beq_iff_eq.mp same] at newer
          exact absurd newer (Nat.lt_irrefl _)

/-- The lookup with its entry in the log. -/
theorem lookup_meets :
    (lookup k conn).Meets protocol
      (fun found later => CallContext k conn later ∧ good later ∧ Found conn found later)
      mem := by
  refine (findSlot_meets looks known holds).andThen ?_
  rintro found later ⟨known, holds, result⟩
  have lasting : Persistent k conn (Found conn found) :=
    fun _ _ _ survives result => result.stable survives
  refine (looks.records found lasting ?_ ?_ lasting known holds result).mono ?_
  · exact fun _ result => ⟨rfl, result.1⟩
  · exact fun _ result => ⟨fun yes => (result.1 yes).note _, fun no => (result.2 no).note _⟩
  · rintro _ later ⟨rfl, after⟩
    exact after

theorem ReadObligations.judge {result : Bool}
    (upheld : NotRefusedBefore conn result mem) :
    (Program.done result : Code Bool).Meets protocol
      (fun result later => CallContext k conn later ∧ good later ∧
        NotRefusedBefore conn result later)
      mem := by
  refine Program.meets_done fun later moves => ?_
  have survives := looks.survives _ _ moves
  exact ⟨survives.known known, looks.stable _ _ known moves holds,
    NotRefusedBefore.lasting result _ _ known survives upheld⟩

/-- The last two loads of `sendable`: the flags of the outbound thread and those of the
receiver. -/
theorem openForSending_meets (owns : HeldAs mem conn) :
    (openForSending conn).Meets protocol
      (fun result later => CallContext k conn later ∧ good later ∧
        NotRefusedBefore conn result later)
      mem := by
  unfold openForSending
  refine Program.meets_read_bind fun first moves => ?_
  obtain ⟨known₁, holds₁, survives⟩ := looks.later known holds moves
  have owns₁ := survives.owns owns
  split
  case isTrue finSent =>
    refine looks.judge known₁ holds₁ ⟨⟨by rintro ⟨⟩, fun _ => Or.inr ⟨?_, Or.inl finSent⟩⟩,
      by rintro ⟨⟩⟩
    exact known₁.ids.current_of_owns owns₁
  case isFalse unsent =>
    refine Program.meets_read_bind fun second moves => ?_
    have survives := looks.survives _ _ moves
    have known₂ := survives.known known₁
    have owns₂ := survives.owns owns₁
    have unsent₂ : hasFinSent (second.tx.slots conn.slot).outFlags = false := by
      rw [survives.out owns₁]
      exact Bool.eq_false_of_not_eq_true unsent
    refine looks.judge known₂ (looks.stable _ _ known₁ moves holds₁)
      ⟨⟨fun _ => ⟨owns₂, unsent₂⟩, ?_⟩, ?_⟩
    · intro refused
      refine Or.inr ⟨known₂.ids.current_of_owns owns₂, Or.inr ?_⟩
      simpa using refused
    · -- an earlier refusal would have had a reason, which would still be there
      intro yes refused
      rcases known₂.ids.refused conn rfl refused with released | ⟨_, finSent | terminated⟩
      · exact known₂.ids.not_owns released owns₂
      · rw [unsent₂] at finSent
        cases finSent
      · dsimp only at yes
        rw [terminated] at yes
        cases yes

/-- The rule for `sendable`: a refusal is final, and so is what it is based on. -/
theorem sendable_meets :
    (sendable k conn).Meets protocol
      (fun result later => CallContext k conn later ∧ good later ∧ SendableAnswer conn result later)
      mem := by
  have saying : ∀ result mem, CallContext k conn mem → good mem →
      NotRefusedBefore conn result mem →
      (returning (.sendableReturned conn result) result).Meets protocol
        (fun result later => CallContext k conn later ∧ good later ∧
          SendableAnswer conn result later)
        mem := by
    intro result mem known holds upheld
    refine (looks.records result (NotRefusedBefore.lasting result) ?_ ?_
      (SendableAnswer.lasting result) known
      holds upheld).mono ?_
    · exact fun _ upheld =>
        ⟨rfl, fun yes => ⟨(upheld.1.1 yes).1, upheld.2 yes⟩, upheld.1.2⟩
    · exact fun _ upheld => upheld.1.note _
    · rintro _ later ⟨rfl, after⟩
      exact after
  refine (lookup_meets looks known holds).andThen ?_
  rintro found later ⟨known, holds, result⟩
  cases found with
  | true =>
      refine (openForSending_meets looks known holds (result.1 rfl)).andThen ?_
      rintro result later ⟨known, holds, upheld⟩
      exact saying result later known holds upheld
  | false =>
      refine saying false later known holds ⟨⟨?_, fun _ => Or.inl (result.2 rfl)⟩, ?_⟩
      · rintro ⟨⟩
      · rintro ⟨⟩

/-- The second `lookup` of `send_space` and `send` succeeds. -/
theorem lookup_again_meets (owns : HeldAs mem conn) :
    (lookup k conn).Meets protocol
      (fun found later => found = true ∧ CallContext k conn later ∧ good later ∧ HeldAs later conn ∧
        later.tx.slots conn.slot = mem.tx.slots conn.slot) mem := by
  refine (lookup_meets (looks.holding (mem.tx.slots conn.slot)) known
    ⟨holds, owns, rfl⟩).mono ?_
  rintro found later ⟨known, ⟨holds, owns, same⟩, result⟩
  cases found with
  | true => exact ⟨rfl, known, holds, owns, same⟩
  | false => exact absurd owns (known.ids.not_owns (result.2 rfl))

/-- The rule for `send_space`. -/
theorem sendSpace_meets :
    (sendSpace k conn).Meets protocol (fun _ later => CallContext k conn later ∧ good later)
      mem := by
  refine (sendable_meets looks known holds).andThen ?_
  rintro result later ⟨known, holds, judged⟩
  cases result with
  | false =>
      refine looks.recordsOnly 0 (fun _ _ _ _ _ => trivial) ?_ known holds trivial
      exact fun _ _ => ⟨rfl, fun positive => absurd rfl positive⟩
  | true =>
      refine (lookup_again_meets looks known holds (judged.1 rfl).1).andThen ?_
      rintro _ later ⟨rfl, known, holds, owns, _⟩
      refine Program.meets_read_bind fun first moves => ?_
      obtain ⟨known₁, holds₁, survives⟩ := looks.later known holds moves
      have owns₁ := survives.owns owns
      refine Program.meets_read_bind fun second moves => ?_
      obtain ⟨known₂, holds₂, survives⟩ := looks.later known₁ holds₁ moves
      refine looks.recordsOnly _ HeldAs.lasting ?_ known₂ holds₂ (survives.owns owns₁)
      exact fun _ owns => ⟨rfl, fun _ => owns⟩

end Loads

end Looking

/-! ## Stores and transmissions -/

/-- The memory after a store to `snd_nxt`. -/
def Memory.withSndNxt (mem : Memory) (i : Nat) (value : BitVec 32) : Memory :=
  ⟨mem.rx, mem.tx.updateSlot i fun fields => { fields with sndNxt := value }⟩

/-- The memory after a store to `out_flags`. -/
def Memory.withOutFlags (mem : Memory) (i : Nat) (value : BitVec 8) : Memory :=
  ⟨mem.rx, mem.tx.updateSlot i fun fields => { fields with outFlags := value }⟩

/-- The memory after the queue has taken segments. -/
def Memory.withSent (mem : Memory) (i : Nat) (segments : List TxSegment) : Memory :=
  ⟨mem.rx,
    { mem.tx with log := (segments.map (.sent i)).reverse ++ mem.tx.log }⟩

/-- The memory after `close` has given the connection up. -/
def Memory.withReleased (mem : Memory) (conn : ConnId) (value : BitVec 8) : Memory :=
  ⟨mem.rx, (mem.tx.updateSlot conn.slot fun fields =>
    { fields with outFlags := value }).note (.released conn)⟩

section Steps

variable {k : TcpStack} {conn : ConnId} {mem : Memory}

@[simp]
theorem Memory.withSndNxt_slots (mem : Memory) (i : Nat) (value : BitVec 32) :
    (mem.withSndNxt i value).tx.slots i = { mem.tx.slots i with sndNxt := value } := by
  simp [Memory.withSndNxt]

@[simp]
theorem Memory.withOutFlags_slots (mem : Memory) (i : Nat) (value : BitVec 8) :
    (mem.withOutFlags i value).tx.slots i = { mem.tx.slots i with outFlags := value } := by
  simp [Memory.withOutFlags]

@[simp]
theorem Memory.withReleased_slots (mem : Memory) (conn : ConnId) (value : BitVec 8) :
    (mem.withReleased conn value).tx.slots conn.slot =
      { mem.tx.slots conn.slot with outFlags := value } := by
  simp [Memory.withReleased]

/-- Storing `snd_nxt` while the application holds the connection. -/
theorem HeldAs.withSndNxt (owns : HeldAs mem conn) (value : BitVec 32) :
    OwnStep conn mem (mem.withSndNxt conn.slot value) ∧
      HeldAs (mem.withSndNxt conn.slot value) conn := by
  refine ⟨.stored _ owns owns.held.2 id, owns.generation, owns.held.1, ?_⟩
  have unmarked := owns.held.2
  simpa [Memory.view] using unmarked

/-- Storing `out_flags` without releasing the connection. -/
theorem HeldAs.withOutFlags (owns : HeldAs mem conn) {value : BitVec 8}
    (unmarked : hasReleased value = false)
    (finSent : hasFinSent (mem.tx.slots conn.slot).outFlags = true → hasFinSent value = true) :
    OwnStep conn mem (mem.withOutFlags conn.slot value) ∧
      HeldAs (mem.withOutFlags conn.slot value) conn := by
  refine ⟨.stored _ owns unmarked finSent, owns.generation, owns.held.1, ?_⟩
  simpa [Memory.view] using unmarked

theorem HeldAs.withSent (owns : HeldAs mem conn) {segments : List TxSegment}
    (small : spans segments < 2 ^ 31) :
    OwnStep conn mem (mem.withSent conn.slot segments) ∧
      HeldAs (mem.withSent conn.slot segments) conn :=
  ⟨.sent segments (fun _ => owns) small, owns.generation, owns.held⟩

theorem HeldAs.withReleased (owns : HeldAs mem conn) {value : BitVec 8}
    (marked : hasReleased value = true)
    (finSent : hasFinSent (mem.tx.slots conn.slot).outFlags = true → hasFinSent value = true) :
    OwnStep conn mem (mem.withReleased conn value) ∧
      Released (mem.withReleased conn value) conn :=
  ⟨.released _ owns marked finSent, List.mem_cons_self⟩

end Steps

/-- What a property of calls has to show about the stores of `send` and `close`, while the
application holds the connection.  `sending` describes the memory during `send`, `closing`
between the two stores of `close`, and `finished` after them. -/
structure CallObligations (k : TcpStack) (conn : ConnId) (protocol : Protocol Memory)
    (good : Memory → Prop)
    (sending : BitVec 32 → Nat → Nat → Nat → List TxSegment → Memory → Prop)
    (closing : BitVec 32 → Memory → Prop)
    (finished : BitVec 32 → List TxSegment → Memory → Prop) : Prop
    extends ReadObligations k conn protocol good where
  begins : ∀ mem base limit, CallContext k conn mem → HeldAs mem conn → good mem →
    hasFinSent (mem.tx.slots conn.slot).outFlags = false →
    (mem.tx.slots conn.slot).sndNxt = base →
    limit ≤ windowSpace (mem.rx.slots conn.slot).sendWindow base →
      sending base limit 0 0 [] mem
  sending_stable : ∀ base limit published taken sent mem later, CallContext k conn mem →
    HeldAs mem conn → protocol.rely mem later →
    sending base limit published taken sent mem → sending base limit published taken sent later
  publish : ∀ base limit off taken sent mem, CallContext k conn mem → HeldAs mem conn →
    sending base limit taken taken sent mem → taken < off → off ≤ limit →
    let after := mem.withSndNxt conn.slot (base + BitVec.ofNat 32 off)
    protocol.assume mem after → OwnStep conn mem after →
      protocol.guarantee mem after ∧ sending base limit off taken sent after
  transmit : ∀ base mss bytes limit off taken stop sent segments mem, CallContext k conn mem →
    HeldAs mem conn → sending base limit off taken sent mem →
    Carries base mss bytes taken segments stop → stop ≤ off → off ≤ limit →
    let after := mem.withSent conn.slot segments
    protocol.assume mem after → OwnStep conn mem after →
      protocol.guarantee mem after ∧ sending base limit off stop (sent ++ segments) after
  rollBack : ∀ base limit off taken sent mem, CallContext k conn mem → HeldAs mem conn →
    sending base limit off taken sent mem → taken ≤ off → off ≤ limit →
    let after := mem.withSndNxt conn.slot (base + BitVec.ofNat 32 taken)
    protocol.assume mem after → OwnStep conn mem after →
      protocol.guarantee mem after ∧ sending base limit taken taken sent after
  ends : ∀ base mss bytes limit count sent mem, CallContext k conn mem → HeldAs mem conn →
    count ≤ limit → Carries base mss bytes 0 sent count →
    sending base limit count count sent mem → good mem
  advance : ∀ mem, CallContext k conn mem → HeldAs mem conn → good mem →
    hasFinSent (mem.tx.slots conn.slot).outFlags = false →
    let seq := (mem.tx.slots conn.slot).sndNxt
    let after := mem.withSndNxt conn.slot (seq + 1)
    protocol.assume mem after → OwnStep conn mem after →
      protocol.guarantee mem after ∧ closing seq after
  closing_stable : ∀ seq mem later, CallContext k conn mem → HeldAs mem conn →
    protocol.rely mem later → closing seq mem → closing seq later
  mark : ∀ seq mem, CallContext k conn mem → HeldAs mem conn → closing seq mem →
    let after := mem.withOutFlags conn.slot
      ((mem.tx.slots conn.slot).outFlags ||| outFinSent)
    protocol.assume mem after → OwnStep conn mem after →
      protocol.guarantee mem after ∧ finished seq [] after
  finished_stable : ∀ seq sent mem later, CallContext k conn mem → HeldAs mem conn →
    protocol.rely mem later → finished seq sent mem → finished seq sent later
  finish : ∀ seq segment mem, CallContext k conn mem → HeldAs mem conn →
    finished seq [] mem → IsFin seq segment →
    let after := mem.withSent conn.slot [segment]
    protocol.assume mem after → OwnStep conn mem after →
      protocol.guarantee mem after ∧ finished seq [segment] after
  settles : ∀ seq sent mem, CallContext k conn mem → HeldAs mem conn →
    finished seq sent mem → good mem
  release : ∀ mem, CallContext k conn mem → HeldAs mem conn → good mem →
    let after := mem.withReleased conn
      ((mem.tx.slots conn.slot).outFlags ||| outReleased)
    protocol.assume mem after → OwnStep conn mem after →
      protocol.guarantee mem after ∧ good after

section Walk

variable {k : TcpStack} {conn : ConnId} {protocol : Protocol Memory} {good : Memory → Prop}
  {sending : BitVec 32 → Nat → Nat → Nat → List TxSegment → Memory → Prop}
  {closing : BitVec 32 → Memory → Prop} {finished : BitVec 32 → List TxSegment → Memory → Prop}

/-- The flags that `closeFin` returns are those in the memory, and the application still
holds the connection. -/
def Closes (k : TcpStack) (conn : ConnId) (good : Memory → Prop) (out : BitVec 8)
    (mem : Memory) : Prop :=
  CallContext k conn mem ∧ good mem ∧ HeldAs mem conn ∧
    (mem.tx.slots conn.slot).outFlags = out

/-- What is known between the stores of `close` stays so. -/
theorem Closes.stable (looks : ReadObligations k conn protocol good) {out : BitVec 8}
    {mem later : Memory} (closes : Closes k conn good out mem)
    (moves : protocol.rely mem later) : Closes k conn good out later := by
  obtain ⟨known, holds, owns, same⟩ := closes
  have survives := looks.survives _ _ moves
  refine ⟨survives.known known, looks.stable _ _ known moves holds, survives.owns owns, ?_⟩
  rw [survives.out owns]
  exact same

section

variable (obligations : CallObligations k conn protocol good sending closing finished)
include obligations

/-- The moves of `send`'s loop. -/
theorem CallObligations.moves (plan : SendPlan) (here : plan.slot = conn.slot)
    (small : plan.limit < 2 ^ 31) :
    Sending protocol plan fun published taken sent mem => CallContext k conn mem ∧
      HeldAs mem conn ∧ sending plan.base plan.limit published taken sent mem := by
  constructor
  case stable =>
    rintro published taken sent mem later ⟨known, owns, held⟩ moves
    have survives := obligations.survives _ _ moves
    exact ⟨survives.known known, survives.owns owns,
      obligations.sending_stable _ _ _ _ _ _ _ known owns moves held⟩
  case publish =>
    rintro off taken sent mem ⟨known, owns, held⟩ more within assumed
    rw [SendPlan.publish, here] at assumed ⊢
    obtain ⟨step, still⟩ := owns.withSndNxt (plan.base + BitVec.ofNat 32 off)
    obtain ⟨kept, after⟩ :=
      obligations.publish _ _ _ _ _ _ known owns held more within assumed step
    exact ⟨kept, known.ownStep step, still, after⟩
  case transmit =>
    rintro off taken stop sent segments mem ⟨known, owns, held⟩ carries inside within assumed
    rw [SendPlan.transmit, here] at assumed ⊢
    obtain ⟨step, still⟩ := owns.withSent (carries.spans.trans_lt (by omega))
    obtain ⟨kept, after⟩ :=
      obligations.transmit _ _ _ _ _ _ _ _ _ _ known owns held carries inside within assumed step
    exact ⟨kept, known.ownStep step, still, after⟩
  case rollBack =>
    rintro off taken sent mem ⟨known, owns, held⟩ back within assumed
    rw [SendPlan.publish, here] at assumed ⊢
    obtain ⟨step, still⟩ := owns.withSndNxt (plan.base + BitVec.ofNat 32 taken)
    obtain ⟨kept, after⟩ :=
      obligations.rollBack _ _ _ _ _ _ known owns held back within assumed step
    exact ⟨kept, known.ownStep step, still, after⟩

/-- The rule for the part of `send` behind its checks, with the bursts as a loop whose invariant
is `sending`. -/
theorem sendOnConnection_meets {mem : Memory} (known : CallContext k conn mem) (holds : good mem)
    (owns : HeldAs mem conn) (unsent : hasFinSent (mem.tx.slots conn.slot).outFlags = false)
    (bytes : List Byte) (env : SendEnv) :
    (sendOnConnection k conn bytes env).Meets protocol
      (fun _ later => CallContext k conn later ∧ good later ∧ HeldAs later conn) mem := by
  have looks := obligations.toReadObligations
  unfold sendOnConnection
  refine Program.meets_read_bind fun first moves => ?_
  obtain ⟨known₁, holds₁, survives⟩ := looks.later known holds moves
  have owns₁ := survives.owns owns
  rw [← survives.out owns] at unsent
  refine Program.meets_read_bind fun second moves => ?_
  obtain ⟨known₂, holds₂, survives⟩ := looks.later known₁ holds₁ moves
  have owns₂ := survives.owns owns₁
  have sameOut := survives.out owns₁
  rw [← sameOut] at unsent
  dsimp only
  have inside : min bytes.length (windowSpace (second.rx.slots conn.slot).sendWindow
      (first.tx.slots conn.slot).sndNxt) ≤ bytes.length := Nat.min_le_left _ _
  have fits : min bytes.length (windowSpace (second.rx.slots conn.slot).sendWindow
      (first.tx.slots conn.slot).sndNxt) ≤ windowSpace (second.rx.slots conn.slot).sendWindow
        (first.tx.slots conn.slot).sndNxt := Nat.min_le_right _ _
  generalize min bytes.length _ = limit at inside fits ⊢
  have started := obligations.begins second _ limit known₂ owns₂ holds₂ unsent
    (congrArg (·.sndNxt) sameOut) fits
  split
  · refine Program.meets_done fun later moves => ?_
    have survives := looks.survives _ _ moves
    exact ⟨survives.known known₂, looks.stable _ _ known₂ moves holds₂, survives.owns owns₂⟩
  · refine Program.meets_read_bind fun third moves => ?_
    have survives := looks.survives _ _ moves
    have known₃ := survives.known known₂
    have owns₃ := survives.owns owns₂
    have started := obligations.sending_stable _ _ _ _ _ _ _ known₂ owns₂ moves started
    refine Program.meets_read_bind fun fourth moves => ?_
    have survives := looks.survives _ _ moves
    have known₄ := survives.known known₃
    have owns₄ := survives.owns owns₃
    have started := obligations.sending_stable _ _ _ _ _ _ _ known₃ owns₃ moves started
    have mss := known₄.ids.stage.mss (TcpState.accepted_iff.mp owns₄.held.1).1
    have positive : 0 < (fourth.rx.slots conn.slot).sendMss.toNat :=
      Nat.pos_of_ne_zero fun zero => mss (BitVec.eq_of_toNat_eq zero)
    generalize planned : SendPlan.mk _ _ _ _ _ _ _ = plan
    have here : plan.slot = conn.slot := by rw [← planned]
    have sameBase : (first.tx.slots conn.slot).sndNxt = plan.base := by rw [← planned]
    have sameLimit : limit = plan.limit := by rw [← planned]
    have enough : 0 < plan.mss := by rw [← planned]; exact positive
    have fitting : plan.limit ≤ plan.bytes.length := by rw [← planned]; exact inside
    have small : plan.limit < 2 ^ 31 := by rw [← planned]; exact fits.trans_lt (windowSpace_lt _ _)
    rw [sameBase, sameLimit] at started
    rw [sameLimit]
    refine (sendLoop_meets k (obligations.moves plan here small) enough fitting env _ 0 0 [] fourth
      (by omega) (Nat.zero_le _) (.nil 0) ⟨known₄, owns₄, started⟩).mono ?_
    rintro count later ⟨segments, within, carries, known, owns, sent⟩
    exact ⟨known, obligations.ends _ _ _ _ _ _ _ known owns within carries sent, owns⟩

/-- The rule for `send`. -/
theorem send_meets {mem : Memory} (known : CallContext k conn mem) (holds : good mem)
    (bytes : List Byte) (env : SendEnv) :
    (send k conn bytes env).Meets protocol (fun _ later => CallContext k conn later ∧ good later)
      mem := by
  have looks := obligations.toReadObligations
  have nothing : ∀ mem, CallContext k conn mem → good mem →
      (returning (.sendReturned conn bytes 0) 0).Meets protocol
        (fun _ later => CallContext k conn later ∧ good later) mem := by
    intro mem known holds
    refine looks.recordsOnly 0 (fun _ _ _ _ _ => trivial) ?_ known holds trivial
    exact fun _ _ => ⟨rfl, fun positive => absurd rfl positive⟩
  unfold send
  split
  · exact nothing mem known holds
  · refine (sendable_meets looks known holds).andThen ?_
    rintro result later ⟨known, holds, judged⟩
    cases result with
    | false => exact nothing later known holds
    | true =>
        obtain ⟨owns, unsent⟩ := judged.1 rfl
        refine (lookup_again_meets looks known holds owns).andThen ?_
        rintro _ later ⟨rfl, known, holds, owns, same⟩
        rw [← same] at unsent
        refine (sendOnConnection_meets obligations known holds owns unsent bytes env).andThen ?_
        rintro count later ⟨known, holds, owns⟩
        refine looks.recordsOnly _ HeldAs.lasting ?_ known holds owns
        exact fun _ owns => ⟨rfl, fun _ => owns⟩

/-- The retry loop of `close`. -/
theorem CallObligations.finishes (seq : BitVec 32) (out : BitVec 8) :
    Finishing protocol conn.slot seq fun sent mem =>
      Closes k conn (finished seq sent) out mem := by
  constructor
  case stable =>
    rintro sent mem later ⟨known, held, owns, same⟩ moves
    have survives := obligations.survives _ _ moves
    refine ⟨survives.known known, obligations.finished_stable _ _ _ _ known owns moves held,
      survives.owns owns, ?_⟩
    rw [survives.out owns]
    exact same
  case transmit =>
    rintro segment mem ⟨known, held, owns, same⟩ isFin after assumed
    have small : spans [segment] < 2 ^ 31 := by rw [spans_cons, isFin.seqSpan]; decide
    obtain ⟨step, still⟩ := owns.withSent small
    obtain ⟨kept, held⟩ := obligations.finish _ _ _ known owns held isFin assumed step
    exact ⟨kept, known.ownStep step, held, still, same⟩

/-- The FIN of `close`: it is published before any attempt to send it. -/
theorem closeFin_meets {out : BitVec 8} {mem : Memory} (closes : Closes k conn good out mem)
    (env : CloseEnv) : (closeFin k conn out env).Meets protocol (Closes k conn good) mem := by
  have looks := obligations.toReadObligations
  have unchanged : ∀ mem, Closes k conn good out mem →
      (Program.done out : Code (BitVec 8)).Meets protocol (Closes k conn good) mem :=
    fun mem closes => Program.meets_done fun later moves => closes.stable looks moves
  unfold closeFin
  split
  case isTrue => exact unchanged mem closes
  case isFalse unsent =>
  refine Program.meets_read_bind fun first moves => ?_
  have closes := closes.stable looks moves
  split
  case isTrue => exact unchanged first closes
  case isFalse =>
  refine Program.meets_read_bind fun second moves => ?_
  obtain ⟨known, holds, owns, same⟩ := closes.stable looks moves
  -- `snd_nxt` is still what has been loaded when it is stored
  refine Program.meets_modify_bind fun third moves assumed => ?_
  have survives := looks.survives _ _ moves
  have sameNxt := congrArg (·.sndNxt) (survives.out owns)
  rw [← sameNxt] at assumed ⊢
  have known₃ := survives.known known
  have owns₃ := survives.owns owns
  have same₃ : (third.tx.slots conn.slot).outFlags = out := by rw [survives.out owns]; exact same
  obtain ⟨step, still⟩ := owns₃.withSndNxt ((third.tx.slots conn.slot).sndNxt + 1)
  obtain ⟨kept, advanced⟩ := obligations.advance third known₃ owns₃
    (looks.stable _ _ known moves holds) (same₃ ▸ Bool.eq_false_of_not_eq_true unsent) assumed step
  refine ⟨kept, Program.meets_modify_bind fun fourth moves assumed => ?_⟩
  have known₃ := known₃.ownStep step
  have survives := looks.survives _ _ moves
  have advanced := obligations.closing_stable _ _ _ known₃ still moves advanced
  have same₄ : (fourth.tx.slots conn.slot).outFlags = out := by
    rw [survives.out still]
    simpa using same₃
  have known₄ := survives.known known₃
  have owns₄ := survives.owns still
  have unmarked : hasReleased (out ||| outFinSent) = false := by
    rw [hasReleased_or_finSent, ← same₄]
    exact owns₄.held.2
  obtain ⟨step, still⟩ := owns₄.withOutFlags unmarked fun _ => hasFinSent_or_finSent out
  have marks := obligations.mark _ _ known₄ owns₄ advanced
  rw [same₄] at marks
  obtain ⟨kept, marked⟩ := marks assumed step
  refine ⟨kept, ?_⟩
  have started : Closes k conn (finished _ []) (out ||| outFinSent)
      (fourth.withOutFlags conn.slot (out ||| outFinSent)) :=
    ⟨known₄.ownStep step, marked, still, by simp⟩
  refine (finLoop_meets k (obligations.finishes _ _) _ env closeRetries 0 none _ (by simp)
    started).andThen ?_
  rintro _ later ⟨segments, _, _, known, held, owns, same⟩
  have closes : Closes k conn good (out ||| outFinSent) later :=
    ⟨known, obligations.settles _ _ _ known owns held, owns, same⟩
  exact Program.meets_done fun later moves => closes.stable looks moves

/-- The rule for `close`: nothing at all for an id that is not held, and otherwise the FIN and
the release. -/
theorem close_meets {mem : Memory} (known : CallContext k conn mem) (holds : good mem)
    (env : CloseEnv) :
    (close k conn env).Meets protocol (fun _ later => CallContext k conn later ∧ good later)
      mem := by
  have looks := obligations.toReadObligations
  have returns : ∀ mem, CallContext k conn mem → good mem → Released mem conn →
      (returning (.closeReturned conn) ()).Meets protocol
        (fun _ later => CallContext k conn later ∧ good later) mem := by
    intro mem known holds released
    have lasting : Persistent k conn fun mem => Released mem conn :=
      fun _ _ _ survives released => survives.released released
    refine looks.recordsOnly () lasting ?_ known holds released
    exact fun _ released => ⟨rfl, released⟩
  refine (lookup_meets looks known holds).andThen ?_
  rintro found later ⟨known, holds, result⟩
  cases found with
  | false => exact returns later known holds (result.2 rfl)
  | true =>
      refine Program.meets_read_bind fun first moves => ?_
      have survives := looks.survives _ _ moves
      have closes : Closes k conn good (first.tx.slots conn.slot).outFlags first :=
        ⟨survives.known known, looks.stable _ _ known moves holds,
          survives.owns (result.1 rfl), rfl⟩
      refine (closeFin_meets obligations closes env).andThen ?_
      rintro out later closes
      refine Program.meets_modify_bind fun second moves assumed => ?_
      obtain ⟨known, holds, owns, same⟩ := closes.stable looks moves
      obtain ⟨step, released⟩ := owns.withReleased (hasReleased_or_released out)
        (fun finSent => by rwa [hasFinSent_or_released, ← same])
      have giving := obligations.release second known owns holds
      rw [same] at giving
      obtain ⟨kept, holds⟩ := giving assumed step
      exact ⟨kept, returns _ (known.ownStep step) holds released⟩

end

/-- The rule for calls. -/
theorem Call.code_meets (call : Call)
    (obligations : CallObligations k call.conn protocol good sending closing finished)
    {mem : Memory}
    (known : CallContext k call.conn mem) (holds : good mem) :
    (call.code k).Meets protocol (fun _ later => CallContext k call.conn later ∧ good later)
      mem := by
  have looks := obligations.toReadObligations
  have ends : ∀ later, CallContext k call.conn later ∧ good later →
      (Program.done () : Code Unit).Meets protocol
        (fun _ later => CallContext k call.conn later ∧ good later) later :=
    fun later ⟨known, holds⟩ => Program.meets_done fun final moves =>
      ⟨(looks.survives _ _ moves).known known, looks.stable _ _ known moves holds⟩
  cases call with
  | sendable conn =>
      refine (sendable_meets looks known holds).andThen ?_
      exact fun _ later after => ends later ⟨after.1, after.2.1⟩
  | sendSpace conn => exact (sendSpace_meets looks known holds).andThen fun _ later => ends later
  | send conn bytes env =>
      exact (send_meets obligations known holds bytes env).andThen fun _ later => ends later
  | close conn env => exact close_meets obligations known holds env

end Walk

end DpdkWrapper.Tcp
