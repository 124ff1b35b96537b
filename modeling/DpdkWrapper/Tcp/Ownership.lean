import DpdkWrapper.Tcp.CallRules

/-!
# Ids and slots in interleaved runs

The rule for calls and the rule for the receiver's tasks are put together for one slot: in
every interleaving `IdInvariant` holds of it, and only a connection that the application holds
is written.  It follows that released ids are dead, and that the inbound thread leaves the
slot of a connection alone until the application gives it up.

`SlotObligations` is the rule in its general form: a property of one slot that holds all the
time, one that holds between calls, and what remains to be shown about the steps of both
threads.  The modules on the wire and on the send numbers use it again with their own properties.
-/

namespace DpdkWrapper.Tcp

open Threads Wire

/-- A step of the outbound thread while a call on this id is under way, as far as slot `i`
is concerned. -/
def Uses (i : Nat) : Option ConnId → Memory → Memory → Prop
  | none, mem, mem' => mem' = mem
  | some conn, mem, mem' =>
      CallFrame conn.slot mem mem' ∧ (conn.slot = i → OwnStep conn mem mem')

section Uses

variable {k : TcpStack} {i : Nat} {caller : Option ConnId} {mem mem' : Memory}

theorem Uses.refl (i : Nat) (caller : Option ConnId) (mem : Memory) :
    Uses i caller mem mem := by
  cases caller with
  | none => exact rfl
  | some conn => exact ⟨.refl _ mem, fun _ => .refl conn mem⟩

theorem Uses.outStep (uses : Uses i caller mem mem') :
    OutStep (.guarding i) mem mem' := by
  cases caller with
  | none =>
      cases uses
      exact .refl _ mem
  | some conn =>
      obtain ⟨frame, own⟩ := uses
      refine ⟨frame.rx, fun j => ?_⟩
      have step := frame.outStep.slot j
      refine ⟨step.conn, step.opens, step.resets, step.taken, step.listed, ?_, ?_⟩
      · rintro rfl
        by_cases here : conn.slot = j
        · subst here
          exact (own rfl).fields.imp id (·.held)
        · exact Or.inl (frame.slots j (Ne.symm here))
      · rintro rfl marked
        by_cases here : conn.slot = j
        · subst here
          exact (own rfl).marked marked
        · have same := frame.slots j (Ne.symm here)
          rwa [show (mem'.view j).out = mem'.tx.slots j from rfl, same]

/-- The ids of the slot stay as they are described, whichever call makes the step. -/
theorem Uses.ids (ids : IdInvariant k i mem) (uses : Uses i caller mem mem') :
    IdInvariant k i mem' := by
  cases caller with
  | none =>
      cases uses
      exact ids
  | some conn =>
      obtain ⟨frame, own⟩ := uses
      by_cases here : conn.slot = i
      · subst here
        exact ids.ownStep (own rfl)
      · exact ids.frame frame here

end Uses

/-- What the outbound thread relies on and guarantees during a call: `always` is kept. -/
def callProtocol (i : Nat) (assume : Memory → Memory → Prop) (always : Memory → Prop)
    (caller : Option ConnId) : Protocol Memory where
  rely := Interferes i
  assume := assume
  guarantee mem mem' := Uses i caller mem mem' ∧ (always mem → always mem')
  rely_refl _ := .refl
  rely_trans _ _ _ left right := left.trans right
  guarantee_refl mem := ⟨.refl i caller mem, id⟩

section Protocol

variable {k : TcpStack} {conn : ConnId} {assume : Memory → Memory → Prop} {always : Memory → Prop}
  {mem mem' : Memory}

theorem OwnStep.guarantees (own : OwnStep conn mem mem')
    (kept : always mem → always mem') :
    (callProtocol conn.slot assume always (some conn)).guarantee mem mem' :=
  ⟨⟨own.frame, fun _ => own⟩, kept⟩

/-- What each step of the inbound thread keeps while the application holds a connection. -/
theorem Interferes.keeps (holds : Memory → Prop)
    (kept : ∀ mem mem', IdInvariant k conn.slot mem → HeldAs mem conn →
      InStep (.guarding conn.slot) mem mem' → holds mem → holds mem')
    (known : CallContext k conn mem) (owns : HeldAs mem conn)
    (moves : Interferes conn.slot mem mem') (held : holds mem) : holds mem' := by
  induction moves with
  | refl => exact held
  | tail before last ih =>
      have survives : ContextKept k conn mem _ := Interferes.survives before
      exact kept _ _ (survives.known known).ids (survives.owns owns) last.1 ih

/-- The loads of a call, where the entries it makes do not matter. -/
theorem callProtocol_looks {calm : Memory → Prop}
    (keeps : ∀ mem mem', IdInvariant k conn.slot mem → InStep (.guarding conn.slot) mem mem' →
      FewOpens conn.slot mem' → calm mem → calm mem')
    (returned : ∀ mem entry, entry.Proper conn mem →
      (always mem → always ⟨mem.rx, mem.tx.note entry⟩) ∧
      (calm mem → calm ⟨mem.rx, mem.tx.note entry⟩)) :
    ReadObligations k conn (callProtocol conn.slot assume always (some conn)) calm where
  survives _ _ := Interferes.survives
  stable mem later known moves held := by
    induction moves with
    | refl => exact held
    | tail before last ih =>
        have survives : ContextKept k conn mem _ := Interferes.survives before
        exact keeps _ _ (survives.known known).ids last.1 last.2 ih
  returned mem entry held proper :=
    ⟨OwnStep.guarantees (.returned entry proper) (returned mem entry proper).1,
      (returned mem entry proper).2 held⟩

end Protocol

/-- What has to be shown of a property of slot `i` that holds all the time, and of another
one that holds between calls: the inbound thread's steps keep them, calls on other slots keep
them, and so do calls on the slot. -/
structure SlotObligations (k : TcpStack) (i : Nat) (assume : Memory → Memory → Prop)
    (always calm : Memory → Prop)
    (sending : BitVec 32 → Nat → Nat → Nat → List TxSegment → Memory → Prop)
    (closing : BitVec 32 → Memory → Prop)
    (finished : BitVec 32 → List TxSegment → Memory → Prop) : Prop where
  keeps : ∀ mem mem', IdInvariant k i mem → InStep (.guarding i) mem mem' → FewOpens i mem' →
    (always mem → always mem') ∧ (calm mem → calm mem')
  spares : ∀ slot mem mem', CallFrame slot mem mem' → slot ≠ i →
    (always mem → always mem') ∧ (calm mem → calm mem')
  obligations : ∀ conn, conn.slot = i →
    CallObligations k conn (callProtocol i assume always (some conn)) calm sending closing finished

section SlotObligations

variable {k : TcpStack} {admits : Memory → Task → Prop} {i : Nat}
  {assume allowed : Memory → Memory → Prop} {always calm : Memory → Prop}
  {sending : BitVec 32 → Nat → Nat → Nat → List TxSegment → Memory → Prop}
  {closing : BitVec 32 → Memory → Prop} {finished : BitVec 32 → List TxSegment → Memory → Prop}
  (obligations : SlotObligations k i assume always calm sending closing finished)
include obligations

theorem SlotObligations.stable {mem later : Memory} (ids : IdInvariant k i mem) (holds : calm mem)
    (moves : Interferes i mem later) : IdInvariant k i later ∧ calm later := by
  induction moves with
  | refl => exact ⟨ids, holds⟩
  | tail _ last ih =>
      obtain ⟨ids, holds⟩ := ih
      exact ⟨ids.inStep rfl last.1 last.2, (obligations.keeps _ _ ids last.1 last.2).2 holds⟩

/-- The outbound thread keeps the protocol of its calls, one call after the other. -/
theorem outboundThread_keeps (assumes : ∀ mem mem', allowed mem mem' → assume mem mem') :
    (outboundThread k).Keeps allowed
      (fun place => callProtocol i assume always (place.map Call.conn))
      (fun _ mem => IdInvariant k i mem ∧ calm mem) where
  assumed _ := assumes
  starts := by
    rintro _ mem _ _ ⟨ids, holds⟩ ⟨call, accepted, rfl, rfl⟩
    by_cases here : call.conn.slot = i
    · have known : CallContext k call.conn mem := ⟨here ▸ ids, accepted⟩
      refine (call.code_meets (obligations.obligations _ here) known holds).mono ?_
      exact fun _ later after => ⟨here ▸ after.1.ids, after.2⟩
    · refine (call.code_always k).meets ?_ ?_ ⟨ids, holds⟩
      · exact fun _ _ moves held => obligations.stable held.1 held.2 moves
      · intro mem mem' frame held
        obtain ⟨kept, still⟩ := obligations.spares _ _ _ frame here
        exact ⟨⟨⟨frame, fun same => absurd same here⟩, kept⟩, held.1.frame frame here,
          still held.2⟩

/-- Both threads together. -/
theorem SlotObligations.parallel (admits : Memory → Task → Prop)
    (few : ∀ mem mem', allowed mem mem' → FewOpens i mem')
    (assumes : ∀ mem mem', allowed mem mem' → assume mem mem') :
    @Parallel Memory (inboundThread k admits) (outboundThread k) allowed
      (fun _ => inboundProtocol (.guarding i)) (fun _ => ReceiverInvariant k)
      (fun place => callProtocol i assume always (place.map Call.conn))
      (fun _ mem => IdInvariant k i mem ∧ calm mem) where
  first := inboundThread_keeps k admits _ fun _ _ => trivial
  second := outboundThread_keeps obligations assumes
  firstRelies _ _ _ _ _ := fun ⟨uses, _⟩ => uses.outStep
  secondRelies _ _ _ _ permitted kept := .single ⟨kept, few _ _ permitted⟩

/-- At the start nothing has been called. -/
theorem SlotObligations.initial (start : calm (Memory.initial k)) :
    (System.initial k admits).Sound (fun _ => inboundProtocol (.guarding i))
      (fun _ => ReceiverInvariant k)
      (fun place : Option Call => callProtocol i assume always (place.map Call.conn))
      (fun _ mem => IdInvariant k i mem ∧ calm mem) where
  first := System.initial_first k admits _
  second := Program.meets_done fun _ => obligations.stable (IdInvariant.initial k i) start

/-- Both properties hold where they should in every interleaving, once the obligations are
met. -/
theorem SlotObligations.invariant (few : ∀ mem mem', allowed mem mem' → FewOpens i mem')
    (assumes : ∀ mem mem', allowed mem mem' → assume mem mem')
    (start : always (Memory.initial k) ∧ calm (Memory.initial k)) {system : System k admits}
    (run : Interleaves allowed (System.initial k admits) system) :
    IdInvariant k i system.state ∧ always system.state := by
  refine (obligations.parallel admits few assumes).invariant
    (fun mem => IdInvariant k i mem ∧ always mem) (obligations.initial start.2)
    ⟨IdInvariant.initial k i, start.1⟩ ?_ ?_ run
  · rintro _ mem mem' ⟨ids, held⟩ permitted step
    have fewer := few _ _ permitted
    exact ⟨ids.inStep rfl step fewer, (obligations.keeps _ _ ids step fewer).1 held⟩
  · rintro place mem mem' ⟨ids, held⟩ _ ⟨uses, kept⟩
    exact ⟨uses.ids ids, kept held⟩

end SlotObligations

/-! ## Any frames, any calls -/

/-- For the invariant of the ids itself nothing remains to be shown. -/
theorem obligations_ids (k : TcpStack) (i : Nat) :
    SlotObligations k i (fun _ _ => True) (fun _ => True) (fun _ => True)
      (fun _ _ _ _ _ _ => True) (fun _ _ => True) (fun _ _ _ => True) where
  keeps _ _ _ _ _ := ⟨id, id⟩
  spares _ _ _ _ _ := ⟨id, id⟩
  obligations := by
    rintro conn rfl
    have kept : ∀ mem mem', OwnStep conn mem mem' →
        (callProtocol conn.slot (fun _ _ => True) (fun _ => True) (some conn)).guarantee mem mem' ∧
          True :=
      fun mem mem' step => ⟨step.guarantees id, trivial⟩
    constructor
    case toReadObligations =>
      exact callProtocol_looks (fun _ _ _ _ _ => id) fun _ _ _ => ⟨id, id⟩
    case publish => exact fun _ _ _ _ _ _ _ _ _ _ _ _ step => kept _ _ step
    case transmit => exact fun _ _ _ _ _ _ _ _ _ _ _ _ _ _ _ _ _ step => kept _ _ step
    case rollBack => exact fun _ _ _ _ _ _ _ _ _ _ _ _ step => kept _ _ step
    case advance => exact fun _ _ _ _ _ _ step => kept _ _ step
    case mark => exact fun _ _ _ _ _ _ step => kept _ _ step
    case finish => exact fun _ _ _ _ _ _ _ _ step => kept _ _ step
    case release => exact fun _ _ _ _ _ step => kept _ _ step
    all_goals
      intros
      trivial

section IdInvariant

variable {k : TcpStack} {admits : Memory → Task → Prop} {system : System k admits} {i : Nat}

/-- The invariant rule for one slot: what a step of either thread keeps, given the invariant of
the slot's ids, holds in every reachable configuration. -/
theorem System.Reachable.invariant (run : system.Reachable) (few : FewOpens i system.state)
    (holds : Memory → Prop) (base : holds (Memory.initial k))
    (inbound : ∀ mem mem', IdInvariant k i mem → holds mem →
      InStep (.guarding i) mem mem' → holds mem')
    (outbound : ∀ caller mem mem', IdInvariant k i mem → holds mem →
      Uses i caller mem mem' → holds mem') :
    IdInvariant k i system.state ∧ holds system.state := by
  refine ((obligations_ids k i).parallel admits (fun _ _ => id) fun _ _ _ => trivial).invariant
    (fun mem => IdInvariant k i mem ∧ holds mem) ((obligations_ids k i).initial trivial)
    ⟨IdInvariant.initial k i, base⟩ ?_ ?_ (run.few few)
  · rintro _ mem mem' ⟨ids, held⟩ few step
    exact ⟨ids.inStep rfl step few, inbound _ _ ids held step⟩
  · rintro place mem mem' ⟨ids, held⟩ _ ⟨uses, _⟩
    exact ⟨uses.ids ids, outbound _ _ _ ids held uses⟩

/-- What the next step of each thread can do to the slot. -/
theorem System.Reachable.steps (run : system.Reachable) (few : FewOpens i system.state) :
    (∀ mem busy, (inboundThread k admits).Advances system.state system.first mem busy →
      InStep (.guarding i) system.state mem) ∧
    (∀ mem busy, (outboundThread k).Advances system.state system.second mem busy →
      Uses i (system.second.place.map Call.conn) system.state mem) := by
  have sound := ((obligations_ids k i).parallel admits (fun _ _ => id) fun _ _ _ => trivial).sound
    ((obligations_ids k i).initial trivial) (run.few few)
  constructor
  · intro mem busy advances
    have acks : ∀ identity ack, (Terms.guarding i).acks identity ack := fun _ _ => trivial
    have keeps := inboundThread_keeps k admits (fun _ _ => True) acks
    exact (keeps.advances advances sound.first trivial).1
  · intro mem busy advances
    have keeps := outboundThread_keeps (obligations_ids k i) fun mem mem' (_ : True) =>
      trivial
    exact (keeps.advances advances sound.second trivial).1.1

/-- The same for a move of either thread, in runs of certain steps. -/
theorem System.Runs.moves {allowed : Memory → Memory → Prop} {next : System k admits}
    (few : ∀ mem mem', allowed mem mem' → FewOpens i mem') (run : System.Runs allowed system)
    (moves : Moves allowed system next) :
    allowed system.state next.state ∧ (InStep (.guarding i) system.state next.state ∨
      ∃ caller, Uses i caller system.state next.state) := by
  have parallel := (obligations_ids k i).parallel admits few fun _ _ _ => trivial
  have sound := parallel.sound ((obligations_ids k i).initial trivial) run
  obtain ⟨permitted, ⟨_, inbound⟩ | ⟨_, uses, _⟩⟩ := parallel.guaranteed sound moves
  · exact ⟨permitted, .inl inbound⟩
  · exact ⟨permitted, .inr ⟨_, uses⟩⟩

end IdInvariant

/-! ## Released ids -/

/-- The entry is no success of a call on this id. -/
def TxEntry.Null (conn : ConnId) : TxEntry → Prop
  | .lookupReturned id found => id = conn → found = false
  | .sendableReturned id result => id = conn → result = false
  | .sendSpaceReturned id space => id = conn → space = 0
  | .sendReturned id _ count => id = conn → count = 0
  | .released id => id ≠ conn
  | .nullDereference id => id ≠ conn
  | _ => True

/-- What a new entry says about this id goes with what has been recorded. -/
structure TxEntry.Fits (conn : ConnId) (mem : Memory) (entry : TxEntry) : Prop where
  null : Released mem conn → entry.Null conn
  closed : entry = .closeReturned conn → Released mem conn
  sendable : .sendableReturned conn false ∈ mem.tx.log → entry ≠ .sendableReturned conn true
  dereference : entry ≠ .nullDereference conn

section Fits

variable {k : TcpStack} {conn id : ConnId} {mem mem' : Memory}

/-- An entry about another id. -/
theorem TxEntry.fits_of_ne {entry : TxEntry} (null : entry.Null conn)
    (notClose : entry ≠ .closeReturned conn)
    (notSendable : ∀ result, entry ≠ .sendableReturned conn result)
    (notNull : entry ≠ .nullDereference conn) : entry.Fits conn mem :=
  ⟨fun _ => null, fun same => absurd same notClose, fun _ => notSendable true, notNull⟩

theorem TxEntry.Of.fits {slot : Nat} {entry : TxEntry} (about : entry.Of slot)
    (other : slot ≠ conn.slot) :
    entry.Fits conn mem ∧ ∀ result, entry ≠ .sendableReturned conn result := by
  have foreign : ∀ id : ConnId, id.slot = slot → id ≠ conn :=
    fun id here same => other (here.symm.trans (congrArg ConnId.slot same))
  cases entry with
  | opened i => exact about.elim
  | sent owner segment =>
      exact ⟨TxEntry.fits_of_ne trivial (by simp) (by simp) (by simp), by simp⟩
  | released id =>
      exact ⟨TxEntry.fits_of_ne (foreign id about) (by simp) (by simp) (by simp), by simp⟩
  | lookupReturned id found =>
      exact ⟨TxEntry.fits_of_ne (fun same => absurd same (foreign id about)) (by simp) (by simp)
        (by simp), by simp⟩
  | sendableReturned id result =>
      have distinct := foreign id about
      exact ⟨TxEntry.fits_of_ne (fun same => absurd same distinct) (by simp)
        (by simp [distinct]) (by simp), by simp [distinct]⟩
  | sendSpaceReturned id space =>
      exact ⟨TxEntry.fits_of_ne (fun same => absurd same (foreign id about)) (by simp) (by simp)
        (by simp), by simp⟩
  | sendReturned id bytes count =>
      exact ⟨TxEntry.fits_of_ne (fun same => absurd same (foreign id about)) (by simp) (by simp)
        (by simp), by simp⟩
  | closeReturned id =>
      exact ⟨TxEntry.fits_of_ne trivial (by simp [foreign id about]) (by simp) (by simp), by simp⟩
  | nullDereference id =>
      exact ⟨TxEntry.fits_of_ne (foreign id about) (by simp) (by simp)
        (by simp [foreign id about]), by simp⟩
  | fault => exact ⟨TxEntry.fits_of_ne trivial (by simp) (by simp) (by simp), by simp⟩

/-- What a call notes about its own id fits the other ids of the slot. -/
theorem TxEntry.Proper.fits {entry : TxEntry} (ids : IdInvariant k conn.slot mem)
    (proper : entry.Proper id mem) : entry.Fits conn mem := by
  have dead : Released mem conn → id = conn → ¬HeldAs mem id := by
    rintro released rfl
    exact ids.not_owns released
  cases entry with
  | opened i => exact proper.elim
  | sent owner segment => exact proper.elim
  | released other => exact proper.elim
  | nullDereference other => exact proper.elim
  | fault => exact proper.elim
  | lookupReturned other found =>
      obtain ⟨rfl, owns⟩ := proper
      refine ⟨fun released same => ?_, by simp, by simp, by simp⟩
      exact Bool.eq_false_of_not_eq_true fun yes => dead released same (owns yes)
  | sendableReturned other result =>
      obtain ⟨rfl, owns, _⟩ := proper
      refine ⟨fun released same => ?_, by simp, ?_, by simp⟩
      · exact Bool.eq_false_of_not_eq_true fun yes => dead released same (owns yes).1
      · intro refused same
        cases same
        exact (owns rfl).2 refused
  | sendSpaceReturned other space =>
      obtain ⟨rfl, owns⟩ := proper
      refine ⟨fun released same => ?_, by simp, by simp, by simp⟩
      by_contra positive
      exact dead released same (owns positive)
  | sendReturned other bytes count =>
      obtain ⟨rfl, owns⟩ := proper
      refine ⟨fun released same => ?_, by simp, by simp, by simp⟩
      by_contra positive
      exact dead released same (owns positive)
  | closeReturned other =>
      obtain ⟨rfl, released⟩ := proper
      refine ⟨fun _ => trivial, ?_, by simp, by simp⟩
      rintro ⟨⟩
      exact released

/-- The order of what calls on this id have returned. -/
structure Truthful (conn : ConnId) (mem : Memory) : Prop where
  closed : .closeReturned conn ∈ mem.tx.log → Released mem conn
  afterClose : mem.tx.log.Pairwise fun later earlier =>
    earlier = .closeReturned conn → later.Null conn
  afterRefusal : mem.tx.log.Pairwise fun later earlier =>
    earlier = .sendableReturned conn false → later ≠ .sendableReturned conn true
  sound : .nullDereference conn ∉ mem.tx.log

theorem Truthful.initial (k : TcpStack) (conn : ConnId) : Truthful conn (Memory.initial k) where
  closed member := by cases member
  afterClose := .nil
  afterRefusal := .nil
  sound := List.not_mem_nil

/-- New entries that fit keep the log truthful. -/
theorem Truthful.extend (truthful : Truthful conn mem) (entries : List TxEntry)
    (log : mem'.tx.log = entries ++ mem.tx.log)
    (fits : ∀ entry ∈ entries, entry.Fits conn mem)
    (order : entries.Pairwise fun later earlier =>
      earlier = .sendableReturned conn false → later ≠ .sendableReturned conn true) :
    Truthful conn mem' := by
  constructor
  case closed =>
    unfold Released
    rw [log, List.mem_append, List.mem_append]
    rintro (new | old)
    · exact Or.inr ((fits _ new).closed rfl)
    · exact Or.inr (truthful.closed old)
  case afterClose =>
    rw [log, List.pairwise_append]
    refine ⟨List.pairwise_of_forall_mem_list ?_, truthful.afterClose, ?_⟩
    · intro later member earlier before same
      exact (fits later member).null ((fits earlier before).closed same)
    · intro later member earlier before same
      exact (fits later member).null (truthful.closed (same ▸ before))
  case afterRefusal =>
    rw [log, List.pairwise_append]
    refine ⟨order, truthful.afterRefusal, ?_⟩
    intro later member earlier before same
    exact (fits later member).sendable (same ▸ before)
  case sound =>
    rw [log, List.mem_append]
    rintro (new | old)
    · exact (fits _ new).dereference rfl
    · exact truthful.sound old

theorem Truthful.inStep {terms : Terms} (truthful : Truthful conn mem)
    (step : InStep terms mem mem') : Truthful conn mem' := by
  rcases step.logged.tx with same | ⟨i, same⟩
  · exact truthful.extend [] same (by simp) .nil
  · refine truthful.extend [.opened i] same ?_ (List.pairwise_singleton _ _)
    intro entry member
    rw [List.mem_singleton.mp member]
    exact TxEntry.fits_of_ne trivial (by simp) (by simp) (by simp)

/-- The step lemma for a call's own steps. -/
theorem Truthful.ownStep (truthful : Truthful conn mem) (ids : IdInvariant k conn.slot mem)
    (step : OwnStep id mem mem') : Truthful conn mem' := by
  cases step with
  | returned entry proper =>
      refine truthful.extend [entry] rfl ?_ (List.pairwise_singleton _ _)
      intro other member
      rw [List.mem_singleton.mp member]
      exact proper.fits ids
  | sent segments =>
      refine truthful.extend _ rfl ?_ (List.pairwise_of_forall_mem_list ?_)
      · intro entry member
        rw [List.mem_reverse, List.mem_map] at member
        obtain ⟨segment, _, rfl⟩ := member
        exact TxEntry.fits_of_ne trivial (by simp) (by simp) (by simp)
      · intro later member
        rw [List.mem_reverse, List.mem_map] at member
        obtain ⟨segment, _, rfl⟩ := member
        simp
  | stored => exact truthful.extend [] rfl (by simp) .nil
  | released change owns =>
      refine truthful.extend [.released id] rfl ?_ (List.pairwise_singleton _ _)
      intro entry member
      rw [List.mem_singleton.mp member]
      refine ⟨?_, by simp, by simp, by simp⟩
      rintro released rfl
      exact ids.not_owns released owns

theorem Truthful.uses {caller : Option ConnId} (truthful : Truthful conn mem)
    (ids : IdInvariant k conn.slot mem) (uses : Uses conn.slot caller mem mem') :
    Truthful conn mem' := by
  cases caller with
  | none =>
      cases uses
      exact truthful
  | some id =>
      obtain ⟨frame, own⟩ := uses
      by_cases here : id.slot = conn.slot
      · exact truthful.ownStep ids (own here)
      · obtain ⟨entries, log, about⟩ := frame.log
        have fits : ∀ entry ∈ entries, entry.Fits conn mem ∧
            ∀ result, entry ≠ .sendableReturned conn result :=
          fun entry member => (about entry member).fits here
        refine truthful.extend entries log (fun entry member => (fits entry member).1) ?_
        refine List.pairwise_of_forall_mem_list ?_
        intro later member _ _ _
        exact (fits later member).2 true

end Fits

section Main

variable {k : TcpStack} {admits : Memory → Task → Prop} {system : System k admits} {conn : ConnId}

/-- The run lemma: whatever calls have returned fits the ids that they were made with. -/
theorem System.Reachable.truthful (run : system.Reachable) (few : FewOpens conn.slot system.state) :
    IdInvariant k conn.slot system.state ∧ Truthful conn system.state :=
  run.invariant few (Truthful conn) (Truthful.initial k conn)
    (fun _ _ _ truthful step => truthful.inStep step)
    fun _ _ _ ids truthful uses => truthful.uses ids uses

/-- Stale ids are dead: after `close` on an id has returned, every later call on it finds
nothing, and no call on it writes anything; nor does a call on it write a newer connection's
fields.  After `sendable` has returned false for an id, it does not return true again. -/
theorem stale_ids_are_dead (run : system.Reachable) (few : FewOpens conn.slot system.state) :
    (system.state.tx.log.Pairwise fun later earlier =>
      earlier = .closeReturned conn → later.Null conn) ∧
    (system.state.tx.log.Pairwise fun later earlier =>
      earlier = .sendableReturned conn false → later ≠ .sendableReturned conn true) ∧
    ∀ mem busy, (outboundThread k).Advances system.state system.second mem busy →
      system.second.place.map Call.conn = some conn →
      .closeReturned conn ∈ system.state.tx.log ∨
        (system.state.rx.slots conn.slot).generation ≠ conn.generation →
      mem.rx = system.state.rx ∧ mem.tx.slots = system.state.tx.slots := by
  obtain ⟨ids, truthful⟩ := run.truthful few
  refine ⟨truthful.afterClose, truthful.afterRefusal, ?_⟩
  intro mem busy advances calling stale
  have uses := (run.steps few).2 mem busy advances
  rw [calling] at uses
  obtain ⟨frame, own⟩ := uses
  have notOwns : ¬HeldAs system.state conn := by
    intro owns
    rcases stale with closed | newer
    · exact ids.not_owns (truthful.closed closed) owns
    · exact newer owns.generation
  refine ⟨frame.rx, funext fun i => ?_⟩
  by_cases here : i = conn.slot
  · subst here
    exact (own rfl).fields.resolve_right notOwns
  · exact frame.slots i here

/-- Calls on an id that has been closed and whose slot has been opened again. -/
theorem stale_ids_are_dead_of_closed :
    let log := singleSlotStale.state.tx.log
    log.count (.closeReturned ⟨0, 1⟩) = 2 ∧ .sendableReturned ⟨0, 1⟩ false ∈ log ∧
      .sendReturned ⟨0, 1⟩ [1] 0 ∈ log ∧ .sendableReturned ⟨0, 2⟩ true ∈ log ∧
      (log.Pairwise fun later earlier =>
        earlier = .closeReturned ⟨0, 1⟩ → later.Null ⟨0, 1⟩) ∧
      log.Pairwise fun later earlier =>
        earlier = .sendableReturned ⟨0, 1⟩ false → later ≠ .sendableReturned ⟨0, 1⟩ true := by
  intro log
  have few : FewOpens 0 singleSlotStale.state := by
    unfold FewOpens
    decide +kernel
  have stale := @stale_ids_are_dead _ _ _ ⟨0, 1⟩ singleSlotStale_reachable few
  exact ⟨by decide +kernel, by decide +kernel, by decide +kernel, by decide +kernel, stale.1,
    stale.2.1⟩

/-- While the application holds a connection, its slot is not recycled: until `close` on the
id has stored `out_released`, no step of the inbound thread changes the connection's identity
or its outbound fields, and the slot is not on the free list. -/
theorem held_slots_are_kept (run : system.Reachable) (few : FewOpens conn.slot system.state) :
    .nullDereference conn ∉ system.state.tx.log ∧
    (Accepted system.state conn → ¬Released system.state conn →
      conn.slot ∉ system.state.rx.freeSlots ∧
      ∀ mem busy, (inboundThread k admits).Advances system.state system.first mem busy →
        (mem.rx.slots conn.slot).identity = (system.state.rx.slots conn.slot).identity ∧
        mem.tx.slots conn.slot = system.state.tx.slots conn.slot) := by
  obtain ⟨ids, truthful⟩ := run.truthful few
  refine ⟨truthful.sound, fun accepted unreleased => ?_⟩
  have owns := ids.owns accepted unreleased
  constructor
  · have unlisted := ids.stage.not_listed owns.held.1
    simpa [Memory.view] using unlisted
  · intro mem busy advances
    have step := (run.steps few).1 mem busy advances
    have spares := step.spares rfl owns
    exact ⟨spares.identity, spares.out⟩

/-- A connection that is held is not on the free list. -/
theorem held_slots_are_kept_of_accepted : 0 ∉ singleSlotServing.state.rx.freeSlots := by
  have few : FewOpens 0 singleSlotServing.state := by
    unfold FewOpens
    decide +kernel
  have unreleased : ¬Released singleSlotServing.state ⟨0, 1⟩ := by
    unfold Released
    decide +kernel
  exact ((held_slots_are_kept singleSlotServing_reachable few).2 singleSlotServing_accepted
    unreleased).1

end Main

end DpdkWrapper.Tcp
