import DpdkWrapper.Tcp.Interleaving

/-!
# Who holds a slot

From its `accepted` event until `close` stores `out_released`, a connection is the
application's, and its slot is not recycled.  The invariant behind this is `IdInvariant`.  It is
about one slot, and it holds as long as the slot has not been opened so often that a generation
comes again.

An id is a slot and a generation, and `SlotView.Stage` says where in its life a slot is.  The
steps of both threads are covered: `IdInvariant.inStep` for the inbound thread,
`IdInvariant.frame` for calls on other slots and `IdInvariant.ownStep` for calls on the slot
itself.  They are put together in `Ownership`.
-/

namespace DpdkWrapper.Tcp

open Threads Wire

/-- `close` on this id has stored `out_released`. -/
def Released (mem : Memory) (conn : ConnId) : Prop :=
  .released conn ∈ mem.tx.log

/-- The connection in the slot has this id and has been accepted. -/
structure Current (mem : Memory) (conn : ConnId) : Prop where
  generation : (mem.rx.slots conn.slot).generation = conn.generation
  taken : (mem.view conn.slot).taken = true

/-- The connection in the slot has this id, and the application holds it. -/
structure HeldAs (mem : Memory) (conn : ConnId) : Prop where
  generation : (mem.rx.slots conn.slot).generation = conn.generation
  held : (mem.view conn.slot).Held

/-- `sendable` has a reason to refuse this id: the connection is over, or a FIN has been
sent, or the peer has ended it. -/
def Unsendable (mem : Memory) (conn : ConnId) : Prop :=
  Released mem conn ∨ (Current mem conn ∧
    (hasFinSent (mem.tx.slots conn.slot).outFlags = true ∨
      (mem.rx.slots conn.slot).terminated = true))

/-! ## The life of a slot -/

namespace SlotView

/-- How the state of a slot, its outbound fields and what the logs say fit together. -/
structure Stage (view : SlotView) : Prop where
  number : view.conn.generation.toNat = view.opens
  taken : view.taken = true → view.conn.state.accepted = true ∨
    (view.conn.state = .free ∧ hasReleased view.out.outFlags = true)
  untaken : view.taken = false → view.conn.state.accepted = false
  ready : view.conn.state ≠ .synReceived → view.resets = view.opens
  reset : view.conn.state = .synReceived → view.resets = view.opens →
    view.out.outFlags = 0 ∧ view.out.sndNxt = view.conn.iss + 1
  listed : view.listed = true → view.conn.state = .free
  mss : view.conn.state ≠ .free → view.conn.sendMss ≠ 0

namespace Stage

variable {view view' : SlotView}

/-- A connection in its handshake has not been given to the application. -/
theorem not_taken (stage : view.Stage) (before : view.conn.state = .synReceived) :
    view.taken = false := by
  rcases taken : view.taken with _ | _
  · rfl
  · rcases stage.taken taken with accepted | ⟨free, _⟩
    · rw [before] at accepted
      cases accepted
    · rw [before] at free
      cases free

theorem is_taken (stage : view.Stage) (accepted : view.conn.state.accepted = true) :
    view.taken = true := by
  rcases taken : view.taken with _ | _
  · rw [stage.untaken taken] at accepted
    cases accepted
  · rfl

theorem not_listed (stage : view.Stage) (accepted : view.conn.state.accepted = true) :
    view.listed = false := by
  rcases listed : view.listed with _ | _
  · rfl
  · exact absurd (stage.listed listed) (TcpState.accepted_iff.mp accepted).1

theorem released (stage : view.Stage) (taken : view.taken = true)
    (free : view.conn.state = .free) : hasReleased view.out.outFlags = true := by
  rcases stage.taken taken with accepted | ⟨_, released⟩
  · rw [free] at accepted
    cases accepted
  · exact released

end Stage

/-- A new connection takes the slot. -/
structure Reopens (view view' : SlotView) : Prop where
  free : view.conn.state = .free
  listed : view.listed = true
  opens : view'.opens = view.opens + 1
  taken : view'.taken = false

/-- The same connection stays in the slot; if it has been accepted, it stays accepted and
its outbound fields are left alone. -/
structure KeepsConn (view view' : SlotView) : Prop where
  identity : view'.conn.identity = view.conn.identity
  opens : view'.opens = view.opens
  taken : view.taken = true → view'.taken = true ∧ view'.out = view.out
  fresh : view.taken = false → view'.taken = true → hasReleased view'.out.outFlags = false

end SlotView

section Step

variable {terms : Terms} {i : Nat} {view view' : SlotView}

/-- A step of the inbound thread reopens the slot or leaves its connection in it. -/
theorem SlotStep.reopens_or_stays (step : SlotStep terms i view view') (stage : view.Stage) :
    view.Reopens view' ∨ view.KeepsConn view' := by
  have untouched : ∀ c : TcpConnection, c.identity = view.conn.identity →
      view.KeepsConn { view with conn := c } := fun c same =>
    ⟨same, rfl, fun taken => ⟨taken, rfl⟩, fun fresh taken => by rw [fresh] at taken; cases taken⟩
  cases step with
  | keep keeps => exact Or.inr (untouched _ keeps.identity)
  | opening free listed => exact Or.inl ⟨free, listed, rfl, rfl⟩
  | prepare _ identity _ => exact Or.inr (untouched _ identity)
  | resetNxt before =>
      refine Or.inr ⟨rfl, rfl, ?_, ?_⟩
      · rw [stage.not_taken before]
        rintro ⟨⟩
      · rintro fresh taken
        rw [fresh] at taken
        cases taken
  | resetFlags before =>
      refine Or.inr ⟨rfl, rfl, ?_, fun _ _ => hasReleased_zero⟩
      rw [stage.not_taken before]
      rintro ⟨⟩
  | accept before ready identity =>
      refine Or.inr ⟨identity, rfl, fun _ => ⟨rfl, rfl⟩, fun _ _ => ?_⟩
      rw [show view.out.outFlags = 0 from (stage.reset before ready).1]
      rfl
  | abort _ _ identity =>
      exact Or.inr ⟨identity, rfl, (untouched _ identity).taken, (untouched _ identity).fresh⟩
  | record seg => exact Or.inr (untouched _ (recordAck_identity seg _))
  | publish => exact Or.inr (untouched _ rfl)
  | release _ _ identity =>
      exact Or.inr ⟨identity, rfl, (untouched _ identity).taken, (untouched _ identity).fresh⟩

theorem nextGeneration_toNat {generation : BitVec 32} (few : generation.toNat + 1 < openLimit) :
    (nextGeneration generation).toNat = generation.toNat + 1 := by
  have next : (generation + 1).toNat = generation.toNat + 1 := by
    rw [BitVec.toNat_add]
    exact Nat.mod_eq_of_lt (Nat.lt_trans few (by decide))
  rw [nextGeneration, if_neg ?_, next]
  intro zero
  rw [zero] at next
  cases next

/-- The same state in a connection with the same identity. -/
theorem SlotView.Stage.withConn (stage : view.Stage) {c : TcpConnection}
    (identity : c.identity = view.conn.identity)
    (state : c.state = view.conn.state ∨
      (view.conn.state.accepted = true ∧ c.state.accepted = true)) :
    SlotView.Stage { view with conn := c } := by
  have sameGeneration : c.generation = view.conn.generation := congrArg (·.generation) identity
  have sameIss : c.iss = view.conn.iss := congrArg (·.iss) identity
  have sameMss : c.sendMss = view.conn.sendMss := congrArg (·.sendMss) identity
  rcases state with same | ⟨before, after⟩
  · constructor
    all_goals dsimp only
    case number => rw [sameGeneration]; exact stage.number
    case taken => rw [same]; exact stage.taken
    case untaken => rw [same]; exact stage.untaken
    case ready => rw [same]; exact stage.ready
    case reset => rw [same, sameIss]; exact stage.reset
    case listed => rw [same]; exact stage.listed
    case mss => rw [same, sameMss]; exact stage.mss
  · obtain ⟨notFree, notNew⟩ := TcpState.accepted_iff.mp after
    obtain ⟨wasNotFree, wasNotNew⟩ := TcpState.accepted_iff.mp before
    constructor
    all_goals dsimp only
    case number => rw [sameGeneration]; exact stage.number
    case taken => exact fun _ => Or.inl after
    case untaken => rw [stage.is_taken before]; rintro ⟨⟩
    case ready => exact fun _ => stage.ready wasNotNew
    case reset => exact fun new => absurd new notNew
    case listed => rw [stage.not_listed before]; rintro ⟨⟩
    case mss => rw [sameMss]; exact fun _ => stage.mss wasNotFree

/-- A connection leaves the slot. -/
theorem SlotView.Stage.freed (stage : view.Stage) {c : TcpConnection}
    (identity : c.identity = view.conn.identity) (free : c.state = .free)
    (ready : view.resets = view.opens)
    (released : view.taken = true → hasReleased view.out.outFlags = true) :
    SlotView.Stage { view with conn := c, listed := true } := by
  constructor
  case number => exact (congrArg (·.generation.toNat) identity).trans stage.number
  case taken => exact fun taken => Or.inr ⟨free, released taken⟩
  case untaken => exact fun _ => by rw [free]; rfl
  case ready => exact fun _ => ready
  case reset =>
    intro new
    rw [free] at new
    cases new
  case listed => exact fun _ => free
  case mss => exact fun notFree => absurd free notFree

/-- The step lemma for one slot: the life of a slot goes through its stages in order. -/
theorem SlotStep.stage (step : SlotStep terms i view view') (guarded : terms.guarded i)
    (stage : view.Stage) (few : view'.opens < openLimit) : view'.Stage := by
  cases step with
  | keep keeps =>
      refine stage.withConn keeps.identity ?_
      rcases keeps.state with ⟨same, _⟩ | ⟨before, after, _⟩
      · exact Or.inl same
      · exact Or.inr ⟨before, after⟩
  | opening free listed ready state generation mss =>
      constructor
      case number =>
        rw [generation, nextGeneration_toNat (by rw [stage.number]; exact few), stage.number]
      case taken => rintro ⟨⟩
      case untaken => exact fun _ => by rw [state]; rfl
      case ready => exact fun notNew => absurd state notNew
      case reset =>
        intro _ same
        dsimp only at same
        omega
      case listed => rintro ⟨⟩
      case mss => exact fun _ => mss
  | prepare before identity after =>
      exact stage.withConn identity (Or.inl (after.trans before.symm))
  | resetNxt before =>
      refine ⟨stage.number, ?_, stage.untaken, stage.ready, ?_, stage.listed, stage.mss⟩
      · rw [stage.not_taken before]
        rintro ⟨⟩
      · exact fun new ready => ⟨(stage.reset new ready).1, rfl⟩
  | resetFlags before unready sndNxt =>
      refine ⟨stage.number, ?_, stage.untaken, ?_, ?_, stage.listed, stage.mss⟩
      · rw [stage.not_taken before]
        rintro ⟨⟩
      · exact fun notNew => absurd before notNew
      · exact fun _ _ => ⟨rfl, sndNxt guarded⟩
  | @accept c before ready identity after =>
      have sameMss : c.sendMss = view.conn.sendMss := congrArg (·.sendMss) identity
      have state : TcpState.accepted .established = true := rfl
      rw [← after] at state
      obtain ⟨notFree, notNew⟩ := TcpState.accepted_iff.mp state
      constructor
      case number => exact (congrArg (·.generation.toNat) identity).trans stage.number
      case taken => exact fun _ => Or.inl state
      case untaken => rintro ⟨⟩
      case ready => exact fun _ => ready
      case reset => exact fun new => absurd new notNew
      case listed =>
        intro listed
        rw [stage.listed listed] at before
        cases before
      case mss =>
        intro _
        dsimp only
        rw [sameMss]
        exact stage.mss (by rw [before]; rintro ⟨⟩)
  | abort before ready identity after =>
      refine stage.freed identity after ready ?_
      rw [stage.not_taken before]
      rintro ⟨⟩
  | record seg accepted =>
      exact stage.withConn (recordAck_identity seg _) (Or.inl (recordAck_state seg _))
  | publish accepted => exact stage.withConn rfl (Or.inl rfl)
  | release closed released identity after =>
      have ready := stage.ready (by rw [closed]; rintro ⟨⟩)
      exact stage.freed identity after ready fun _ => released guarded

/-- A step leaves a connection that the application holds in its slot. -/
structure SlotView.Spares (view view' : SlotView) : Prop where
  identity : view'.conn.identity = view.conn.identity
  out : view'.out = view.out
  listed : view'.listed = view.listed
  held : view'.Held
  terminated : view.conn.terminated = true → view'.conn.terminated = true

/-- As long as the application holds the slot's connection, the inbound thread leaves the slot
to it. -/
theorem SlotStep.spares (step : SlotStep terms i view view') (guarded : terms.guarded i)
    (held : view.Held) : view.Spares view' := by
  obtain ⟨accepted, unmarked⟩ := held
  obtain ⟨notFree, notNew⟩ := TcpState.accepted_iff.mp accepted
  cases step with
  | keep keeps =>
      refine ⟨keeps.identity, rfl, rfl, ⟨keeps.accepted accepted, unmarked⟩, ?_⟩
      rcases keeps.state with ⟨_, same⟩ | ⟨_, _, rises⟩
      · exact fun terminated => same.trans terminated
      · exact rises
  | opening free => exact absurd free notFree
  | prepare before => exact absurd before notNew
  | resetNxt before => exact absurd before notNew
  | resetFlags before => exact absurd before notNew
  | accept before => exact absurd before notNew
  | abort before => exact absurd before notNew
  | record seg =>
      refine ⟨recordAck_identity seg _, rfl, rfl, ⟨?_, unmarked⟩, ?_⟩
      · exact (congrArg TcpState.accepted (recordAck_state seg _)).trans accepted
      · obtain ⟨una, wnd, wl1, wl2, same⟩ := recordAck_eq seg view.conn
        rw [same]
        exact id
  | publish => exact ⟨rfl, rfl, rfl, ⟨accepted, unmarked⟩, id⟩
  | release _ released =>
      rw [released guarded] at unmarked
      cases unmarked

/-- A slot that is not there stays unused. -/
theorem SlotStep.unused (step : SlotStep terms i view view')
    (unused : view.conn.state = .free ∧ view.listed = false ∧ view.taken = false) :
    view'.conn.state = .free ∧ view'.listed = false ∧ view'.taken = false := by
  obtain ⟨free, unlisted, untaken⟩ := unused
  have notAccepted : view.conn.state.accepted = true → False := by
    rw [free]
    rintro ⟨⟩
  have notNew : view.conn.state = .synReceived → False := by
    rw [free]
    rintro ⟨⟩
  cases step with
  | keep keeps =>
      rcases keeps.state with ⟨same, _⟩ | ⟨before, _, _⟩
      · exact ⟨same.trans free, unlisted, untaken⟩
      · exact (notAccepted before).elim
  | opening _ listed =>
      rw [unlisted] at listed
      cases listed
  | prepare before => exact (notNew before).elim
  | resetNxt before => exact (notNew before).elim
  | resetFlags before => exact (notNew before).elim
  | accept before => exact (notNew before).elim
  | abort before => exact (notNew before).elim
  | record _ accepted => exact (notAccepted accepted).elim
  | publish accepted => exact (notAccepted accepted).elim
  | release closed =>
      rw [free] at closed
      cases closed

end Step

/-! ## The ids of a slot -/

/-- What is known about the ids that the application has got for slot `i`: each is the
slot's current one or has been released, the current one has been released if and only if
`out_flags` says so, and what `sendable` has refused is to be refused. -/
structure IdInvariant (k : TcpStack) (i : Nat) (mem : Memory) : Prop where
  stage : (mem.view i).Stage
  accepted : ∀ conn, conn.slot = i → Accepted mem conn →
    Released mem conn ∨ Current mem conn
  released : ∀ conn, conn.slot = i → Released mem conn →
    conn.generation.toNat ≤ (mem.view i).opens ∧
      (conn.generation = (mem.rx.slots i).generation →
        (mem.view i).taken = true ∧ hasReleased (mem.tx.slots i).outFlags = true)
  signed : (mem.view i).taken = true → hasReleased (mem.tx.slots i).outFlags = true →
    Released mem ⟨i, (mem.rx.slots i).generation⟩
  refused : ∀ conn, conn.slot = i → .sendableReturned conn false ∈ mem.tx.log →
    Unsendable mem conn
  outside : k.maxConnections ≤ i → (mem.rx.slots i).state = .free ∧
    (mem.view i).listed = false ∧ (mem.view i).taken = false

/-- Nothing has been accepted or released at the start. -/
theorem IdInvariant.initial (k : TcpStack) (i : Nat) : IdInvariant k i (Memory.initial k) := by
  have nothingAccepted : ∀ conn, ¬Accepted (Memory.initial k) conn := by
    rintro conn ⟨event, member, _⟩
    cases member
  have nothingReleased : ∀ conn, ¬Released (Memory.initial k) conn := by
    rintro conn member
    cases member
  constructor
  case stage =>
    refine ⟨rfl, ?_, fun _ => rfl, fun _ => rfl, ?_, fun _ => rfl, fun notFree =>
      absurd rfl notFree⟩
    · rintro ⟨⟩
    · rintro ⟨⟩
  case accepted => exact fun conn _ accepted => absurd accepted (nothingAccepted conn)
  case released => exact fun conn _ released => absurd released (nothingReleased conn)
  case signed => rintro ⟨⟩
  case refused =>
    rintro conn _ member
    cases member
  case outside =>
    intro beyond
    refine ⟨rfl, ?_, rfl⟩
    simpa [Memory.view, Memory.initial, Receiver.initial] using beyond

namespace IdInvariant

variable {k : TcpStack} {i : Nat} {mem : Memory} {conn : ConnId}

theorem not_owns (ids : IdInvariant k conn.slot mem) (released : Released mem conn) :
    ¬HeldAs mem conn := by
  intro owns
  have ended := ((ids.released conn rfl released).2 owns.generation.symm).2
  have held := owns.held.2
  rw [show (mem.view conn.slot).out = mem.tx.slots conn.slot from rfl, ended] at held
  cases held

/-- An id that has not been released names the connection that the application holds. -/
theorem owns_of_current (ids : IdInvariant k conn.slot mem) (current : Current mem conn)
    (unreleased : ¬Released mem conn) : HeldAs mem conn := by
  have unmarked : hasReleased (mem.view conn.slot).out.outFlags = false := by
    rcases marked : hasReleased (mem.view conn.slot).out.outFlags with _ | _
    · rfl
    · have released := ids.signed current.taken marked
      rw [current.generation] at released
      exact absurd released unreleased
  refine ⟨current.generation, ?_, unmarked⟩
  rcases ids.stage.taken current.taken with accepted | ⟨_, marked⟩
  · exact accepted
  · rw [unmarked] at marked
    cases marked

theorem owns (ids : IdInvariant k conn.slot mem) (accepted : Accepted mem conn)
    (unreleased : ¬Released mem conn) : HeldAs mem conn := by
  rcases ids.accepted conn rfl accepted with released | current
  · exact absurd released unreleased
  · exact ids.owns_of_current current unreleased

theorem current_of_owns (ids : IdInvariant k conn.slot mem) (owns : HeldAs mem conn) :
    Current mem conn :=
  ⟨owns.generation, ids.stage.is_taken owns.held.1⟩

end IdInvariant

/-! ## Steps of the inbound thread -/

section InStep

variable {k : TcpStack} {terms : Terms} {i : Nat} {mem mem' : Memory} {conn : ConnId}

theorem InStep.entry_iff (step : InStep terms mem mem') {entry : TxEntry}
    (other : ∀ i, entry ≠ .opened i) : entry ∈ mem'.tx.log ↔ entry ∈ mem.tx.log := by
  rcases step.logged.tx with same | ⟨i, same⟩
  · rw [same]
  · rw [same, List.mem_cons, or_iff_right (other i)]

theorem InStep.released_iff (step : InStep terms mem mem') (conn : ConnId) :
    Released mem' conn ↔ Released mem conn :=
  step.entry_iff (by simp)

theorem InStep.accepted_mono (step : InStep terms mem mem')
    (accepted : Accepted mem conn) : Accepted mem' conn := by
  obtain ⟨event, member, isAccepted, named⟩ := accepted
  obtain ⟨entries, same, _⟩ := step.logged.rx
  refine ⟨event, ?_, isAccepted, named⟩
  rw [same]
  exact List.mem_append_right entries member

/-- A new id is the slot's current one. -/
theorem InStep.accepted_new (step : InStep terms mem mem')
    (accepted : Accepted mem' conn) : Accepted mem conn ∨
      (conn.generation = (mem.rx.slots conn.slot).generation ∧
        (mem'.view conn.slot).taken = true) := by
  obtain ⟨event, member, isAccepted, rfl⟩ := accepted
  obtain ⟨entries, same, about⟩ := step.logged.rx
  rw [same] at member
  rcases List.mem_append.mp member with new | old
  · obtain ⟨sameGeneration, taken⟩ := about event new
    exact Or.inr ⟨sameGeneration, taken isAccepted⟩
  · exact Or.inl ⟨event, old, isAccepted, rfl⟩

theorem InStep.spares (step : InStep terms mem mem') (guarded : terms.guarded conn.slot)
    (owns : HeldAs mem conn) :
    (mem.view conn.slot).Spares (mem'.view conn.slot) :=
  (step.slot conn.slot).spares guarded owns.held

theorem HeldAs.inStep (owns : HeldAs mem conn) (guarded : terms.guarded conn.slot)
    (step : InStep terms mem mem') : HeldAs mem' conn :=
  have spares := step.spares guarded owns
  ⟨(congrArg (·.generation) spares.identity).trans owns.generation, spares.held⟩

/-- What `sendable` has refused stays refused under every step of the inbound thread. -/
theorem Unsendable.inStep (unsendable : Unsendable mem conn)
    (ids : IdInvariant k conn.slot mem)
    (guarded : terms.guarded conn.slot) (step : InStep terms mem mem') :
    Unsendable mem' conn := by
  by_cases released : Released mem conn
  · exact Or.inl ((step.released_iff conn).mpr released)
  · rcases unsendable with ended | ⟨current, reason⟩
    · exact absurd ended released
    · have owns := ids.owns_of_current current released
      have spares := step.spares guarded owns
      refine Or.inr ⟨⟨(owns.inStep guarded step).generation, ?_⟩, ?_⟩
      · rcases (step.slot conn.slot).reopens_or_stays ids.stage with reopens | stays
        · exact absurd reopens.free (TcpState.accepted_iff.mp owns.held.1).1
        · exact (stays.taken current.taken).1
      · rcases reason with finSent | terminated
        · refine Or.inl ?_
          rw [show mem'.tx.slots conn.slot = mem.tx.slots conn.slot from spares.out]
          exact finSent
        · exact Or.inr (spares.terminated terminated)

/-- The inbound thread keeps the invariant: a new id belongs to a slot that nobody holds. -/
theorem IdInvariant.inStep (ids : IdInvariant k i mem) (guarded : terms.guarded i)
    (step : InStep terms mem mem') (few : FewOpens i mem') : IdInvariant k i mem' := by
  have stage := (step.slot i).stage guarded ids.stage few
  have unused := fun beyond => (step.slot i).unused (ids.outside beyond)
  have released_iff := step.released_iff
  have refused : ∀ conn, conn.slot = i → .sendableReturned conn false ∈ mem'.tx.log →
      Unsendable mem' conn := by
    rintro conn rfl member
    rw [step.entry_iff (by simp)] at member
    exact (ids.refused conn rfl member).inStep ids guarded step
  rcases (step.slot i).reopens_or_stays ids.stage with reopens | stays
  · -- every id of the slot has been released by now
    have ended : ∀ conn, conn.slot = i → Accepted mem conn → Released mem conn := by
      rintro conn rfl accepted
      rcases ids.accepted conn rfl accepted with released | current
      · exact released
      · have marked := ids.stage.released current.taken reopens.free
        have released := ids.signed current.taken marked
        rwa [current.generation] at released
    have sameNumber : (mem'.rx.slots i).generation.toNat = (mem.view i).opens + 1 :=
      stage.number.trans reopens.opens
    refine ⟨stage, ?_, ?_, ?_, refused, unused⟩
    · rintro conn rfl accepted
      rcases step.accepted_new accepted with before | ⟨_, taken⟩
      · exact Or.inl ((released_iff conn).mpr (ended conn rfl before))
      · rw [reopens.taken] at taken
        cases taken
    · intro conn here released
      have older := (ids.released conn here ((released_iff conn).mp released)).1
      refine ⟨Nat.le_trans older (by rw [reopens.opens]; exact Nat.le_succ _), ?_⟩
      intro same
      rw [same] at older
      omega
    · rw [reopens.taken]
      rintro ⟨⟩
  · have sameGeneration : (mem'.rx.slots i).generation = (mem.rx.slots i).generation :=
      congrArg (·.generation) stays.identity
    refine ⟨stage, ?_, ?_, ?_, refused, unused⟩
    · rintro conn rfl accepted
      rcases step.accepted_new accepted with before | ⟨same, taken⟩
      · rcases ids.accepted conn rfl before with released | current
        · exact Or.inl ((released_iff conn).mpr released)
        · exact Or.inr ⟨sameGeneration.trans current.generation, (stays.taken current.taken).1⟩
      · exact Or.inr ⟨sameGeneration.trans same.symm, taken⟩
    · intro conn here released
      obtain ⟨older, marked⟩ := ids.released conn here ((released_iff conn).mp released)
      refine ⟨stays.opens ▸ older, ?_⟩
      rw [sameGeneration]
      intro same
      obtain ⟨taken, flag⟩ := marked same
      obtain ⟨stillTaken, sameOut⟩ := stays.taken taken
      refine ⟨stillTaken, ?_⟩
      rw [show mem'.tx.slots i = mem.tx.slots i from sameOut]
      exact flag
    · intro taken marked
      rw [sameGeneration, released_iff]
      rcases before : (mem.view i).taken with _ | _
      · have fresh := stays.fresh before taken
        rw [show (mem'.view i).out = mem'.tx.slots i from rfl, marked] at fresh
        cases fresh
      · refine ids.signed before ?_
        rwa [show mem'.tx.slots i = mem.tx.slots i from (stays.taken before).2] at marked

end InStep

/-! ## Steps of calls -/

/-- What a call on `conn` returns is true when it is recorded. -/
def TxEntry.Proper (conn : ConnId) (mem : Memory) : TxEntry → Prop
  | .lookupReturned id found => id = conn ∧ (found = true → HeldAs mem conn)
  | .sendableReturned id result => id = conn ∧
      (result = true → HeldAs mem conn ∧ .sendableReturned conn false ∉ mem.tx.log) ∧
      (result = false → Unsendable mem conn)
  | .sendSpaceReturned id space => id = conn ∧ (space ≠ 0 → HeldAs mem conn)
  | .sendReturned id _ count => id = conn ∧ (count ≠ 0 → HeldAs mem conn)
  | .closeReturned id => id = conn ∧ Released mem conn
  | _ => False

/-- A step of a call on `conn`: only a connection that the application holds is written. -/
inductive OwnStep (conn : ConnId) (mem : Memory) : Memory → Prop
  | returned (entry : TxEntry) (proper : entry.Proper conn mem) :
      OwnStep conn mem ⟨mem.rx, mem.tx.note entry⟩
  | sent (segments : List TxSegment) (owns : segments ≠ [] → HeldAs mem conn)
      (small : spans segments < 2 ^ 31) :
      OwnStep conn mem ⟨mem.rx,
        { mem.tx with
          log := (segments.map (.sent conn.slot)).reverse ++ mem.tx.log }⟩
  | stored (change : OutboundFields → OutboundFields) (owns : HeldAs mem conn)
      (unmarked : hasReleased (change (mem.tx.slots conn.slot)).outFlags = false)
      (finSent : hasFinSent (mem.tx.slots conn.slot).outFlags = true →
        hasFinSent (change (mem.tx.slots conn.slot)).outFlags = true) :
      OwnStep conn mem ⟨mem.rx, mem.tx.updateSlot conn.slot change⟩
  | released (change : OutboundFields → OutboundFields) (owns : HeldAs mem conn)
      (marked : hasReleased (change (mem.tx.slots conn.slot)).outFlags = true)
      (finSent : hasFinSent (mem.tx.slots conn.slot).outFlags = true →
        hasFinSent (change (mem.tx.slots conn.slot)).outFlags = true) :
      OwnStep conn mem
        ⟨mem.rx, (mem.tx.updateSlot conn.slot change).note (.released conn)⟩

theorem TxEntry.Proper.of {conn : ConnId} {mem : Memory} {entry : TxEntry}
    (proper : entry.Proper conn mem) : entry.Of conn.slot := by
  cases entry with
  | lookupReturned id found => exact congrArg ConnId.slot proper.1
  | sendableReturned id result => exact congrArg ConnId.slot proper.1
  | sendSpaceReturned id space => exact congrArg ConnId.slot proper.1
  | sendReturned id bytes count => exact congrArg ConnId.slot proper.1
  | closeReturned id => exact congrArg ConnId.slot proper.1
  | opened slot => exact proper
  | sent owner segment => exact proper.elim
  | released id => exact proper.elim
  | nullDereference id => exact proper.elim
  | fault => trivial

section OwnStep

variable {k : TcpStack} {conn : ConnId} {mem mem' : Memory}

theorem OwnStep.refl (conn : ConnId) (mem : Memory) : OwnStep conn mem mem :=
  .sent [] (fun some => absurd rfl some) (by decide)

/-- A call's own step stays within the frame of calls. -/
theorem OwnStep.frame (step : OwnStep conn mem mem') :
    CallFrame conn.slot mem mem' := by
  cases step with
  | returned entry proper => exact CallFrame.note mem proper.of
  | sent segments => exact ⟨rfl, fun _ _ => rfl, _, rfl, by simp [TxEntry.Of]⟩
  | stored change => exact CallFrame.updateSlot mem change
  | released change =>
      exact (CallFrame.updateSlot mem change).trans (.note _ (by rfl))

theorem OwnStep.fields (step : OwnStep conn mem mem') :
    mem'.tx.slots conn.slot = mem.tx.slots conn.slot ∨ HeldAs mem conn := by
  cases step with
  | returned => exact Or.inl rfl
  | sent => exact Or.inl rfl
  | stored _ owns => exact Or.inr owns
  | released _ owns => exact Or.inr owns

theorem OwnStep.finSent (step : OwnStep conn mem mem')
    (finSent : hasFinSent (mem.tx.slots conn.slot).outFlags = true) :
    hasFinSent (mem'.tx.slots conn.slot).outFlags = true := by
  cases step with
  | returned => exact finSent
  | sent => exact finSent
  | stored change _ _ kept => simpa using kept finSent
  | released change _ _ kept => simpa using kept finSent

/-- `out_released` is not taken back. -/
theorem OwnStep.marked (step : OwnStep conn mem mem')
    (marked : hasReleased (mem.tx.slots conn.slot).outFlags = true) :
    hasReleased (mem'.tx.slots conn.slot).outFlags = true := by
  cases step with
  | returned => exact marked
  | sent => exact marked
  | stored change owns =>
      have unmarked : hasReleased (mem.tx.slots conn.slot).outFlags = false := owns.held.2
      rw [marked] at unmarked
      cases unmarked
  | released change _ after => simpa using after

section

variable {slot : Nat} (frame : CallFrame slot mem mem')
include slot frame

theorem CallFrame.released_mono (released : Released mem conn) : Released mem' conn := by
  obtain ⟨entries, same, _⟩ := frame.log
  unfold Released
  rw [same]
  exact List.mem_append_right entries released

theorem CallFrame.accepted_iff (conn : ConnId) : Accepted mem' conn ↔ Accepted mem conn := by
  unfold Accepted
  rw [frame.rx]

theorem CallFrame.current_iff (conn : ConnId) : Current mem' conn ↔ Current mem conn := by
  have sameTaken : (mem'.view conn.slot).taken = (mem.view conn.slot).taken :=
    (frame.outStep.slot conn.slot).taken
  constructor
  · rintro ⟨generation, taken⟩
    rw [frame.rx] at generation
    exact ⟨generation, sameTaken ▸ taken⟩
  · rintro ⟨generation, taken⟩
    rw [← frame.rx] at generation
    exact ⟨generation, sameTaken.trans taken⟩

theorem CallFrame.entry_iff {entry : TxEntry} (foreign : ¬entry.Of slot) :
    entry ∈ mem'.tx.log ↔ entry ∈ mem.tx.log := by
  obtain ⟨entries, same, about⟩ := frame.log
  rw [same, List.mem_append, or_iff_right fun new => foreign (about entry new)]

end

theorem CallFrame.other {slot i : Nat} (frame : CallFrame slot mem mem') (other : slot ≠ i)
    (here : conn.slot = i) : Released mem' conn ↔ Released mem conn :=
  frame.entry_iff fun about => other (about.symm.trans here)

theorem Unsendable.frame {slot : Nat} (unsendable : Unsendable mem conn)
    (frame : CallFrame slot mem mem') (other : slot ≠ conn.slot) :
    Unsendable mem' conn := by
  refine unsendable.imp frame.released_mono ?_
  rintro ⟨current, reason⟩
  refine ⟨(frame.current_iff conn).mpr current, ?_⟩
  rw [frame.rx, frame.slots _ (Ne.symm other)]
  exact reason

theorem Unsendable.ownStep {id : ConnId} (unsendable : Unsendable mem id)
    (here : id.slot = conn.slot) (own : OwnStep conn mem mem') :
    Unsendable mem' id := by
  refine unsendable.imp own.frame.released_mono ?_
  rintro ⟨current, reason⟩
  refine ⟨(own.frame.current_iff id).mpr current, ?_⟩
  rw [here] at reason ⊢
  rw [own.frame.rx]
  exact reason.imp own.finSent fun terminated => terminated

/-- What a step of a call may do to a slot's view. -/
theorem SlotView.Stage.outStep {guarded : Prop} {view view' : SlotView} (stage : view.Stage)
    (step : OutSlotStep guarded view view')
    (fields : view'.out = view.out ∨ view.conn.state.accepted = true) : view'.Stage := by
  constructor
  all_goals simp only [step.conn, step.opens, step.resets, step.taken, step.listed]
  case number => exact stage.number
  case taken =>
    intro taken
    rcases fields with same | accepted
    · rw [same]
      exact stage.taken taken
    · exact Or.inl accepted
  case untaken => exact stage.untaken
  case ready => exact stage.ready
  case reset =>
    intro new
    rcases fields with same | accepted
    · rw [same]
      exact stage.reset new
    · exact absurd new (TcpState.accepted_iff.mp accepted).2
  case listed => exact stage.listed
  case mss => exact stage.mss

/-- Calls on other slots keep the invariant. -/
theorem IdInvariant.frame {slot i : Nat} (ids : IdInvariant k i mem)
    (frame : CallFrame slot mem mem') (other : slot ≠ i) : IdInvariant k i mem' := by
  have step := frame.outStep.slot i
  have sameOut : mem'.tx.slots i = mem.tx.slots i := frame.slots i (Ne.symm other)
  refine ⟨ids.stage.outStep step (Or.inl sameOut), ?_, ?_, ?_, ?_, ?_⟩
  · intro conn here
    rw [frame.accepted_iff, frame.other other here, frame.current_iff]
    exact ids.accepted conn here
  · intro conn here
    rw [frame.other other here, step.opens, step.taken, frame.rx, sameOut]
    exact ids.released conn here
  · rw [step.taken, sameOut, frame.rx, frame.other other rfl]
    exact ids.signed
  · rintro conn rfl member
    have foreign : ¬TxEntry.Of slot (.sendableReturned conn false) := fun about => other about.symm
    rw [frame.entry_iff foreign] at member
    exact (ids.refused conn rfl member).frame frame other
  · rw [frame.rx, step.listed, step.taken]
    exact ids.outside

/-- An id is released by the store of its own call. -/
theorem OwnStep.released_new {id : ConnId} (step : OwnStep conn mem mem')
    (released : Released mem' id) : Released mem id ∨ (id = conn ∧ HeldAs mem conn ∧
      hasReleased (mem'.tx.slots conn.slot).outFlags = true) := by
  cases step with
  | returned entry proper =>
      rcases List.mem_cons.mp released with rfl | old
      · exact proper.elim
      · exact Or.inl old
  | sent => exact Or.inl (by simpa [Released] using released)
  | stored => exact Or.inl released
  | released change owns marked =>
      rcases List.mem_cons.mp released with new | old
      · cases new
        exact Or.inr ⟨rfl, owns, by simpa using marked⟩
      · exact Or.inl old

/-- When `out_released` is stored, this is recorded. -/
theorem OwnStep.marked_new (step : OwnStep conn mem mem')
    (marked : hasReleased (mem'.tx.slots conn.slot).outFlags = true) :
    hasReleased (mem.tx.slots conn.slot).outFlags = true ∨
      (HeldAs mem conn ∧ Released mem' conn) := by
  cases step with
  | returned => exact Or.inl marked
  | sent => exact Or.inl marked
  | stored change owns unmarked =>
      simp [unmarked] at marked
  | released change owns => exact Or.inr ⟨owns, List.mem_cons_self⟩

/-- `sendable` refuses with a reason. -/
theorem OwnStep.refused_new {id : ConnId} (step : OwnStep conn mem mem')
    (refused : .sendableReturned id false ∈ mem'.tx.log) :
    .sendableReturned id false ∈ mem.tx.log ∨ (id = conn ∧ Unsendable mem conn) := by
  cases step with
  | returned entry proper =>
      rcases List.mem_cons.mp refused with rfl | old
      · exact Or.inr ⟨proper.1, proper.2.2 rfl⟩
      · exact Or.inl old
  | sent => exact Or.inl (by simpa using refused)
  | stored => exact Or.inl refused
  | released change owns =>
      rcases List.mem_cons.mp refused with new | old
      · cases new
      · exact Or.inl old

/-- Calls on the slot itself keep the invariant: only the holder releases. -/
theorem IdInvariant.ownStep (ids : IdInvariant k conn.slot mem)
    (own : OwnStep conn mem mem') : IdInvariant k conn.slot mem' := by
  have frame := own.frame
  have step := frame.outStep.slot conn.slot
  have fields : (mem'.view conn.slot).out = (mem.view conn.slot).out ∨
      (mem.view conn.slot).conn.state.accepted = true := own.fields.imp id (·.held.1)
  refine ⟨ids.stage.outStep step fields, ?_, ?_, ?_, ?_, ?_⟩
  · intro other here accepted
    rw [frame.accepted_iff] at accepted
    rw [frame.current_iff]
    exact (ids.accepted other here accepted).imp frame.released_mono id
  · intro other here released
    rw [step.opens, step.taken, frame.rx]
    rcases own.released_new released with before | ⟨rfl, owns, marked⟩
    · obtain ⟨older, known⟩ := ids.released other here before
      exact ⟨older, fun same => ⟨(known same).1, own.marked (known same).2⟩⟩
    · refine ⟨?_, fun _ => ⟨ids.stage.is_taken owns.held.1, marked⟩⟩
      rw [← owns.generation]
      exact Nat.le_of_eq ids.stage.number
  · rw [step.taken, frame.rx]
    intro taken marked
    rcases own.marked_new marked with before | ⟨owns, released⟩
    · exact frame.released_mono (ids.signed taken before)
    · rwa [owns.generation]
  · intro other here member
    refine Unsendable.ownStep ?_ here own
    rcases own.refused_new member with before | ⟨rfl, unsendable⟩
    · exact ids.refused other here before
    · exact unsendable
  · rw [frame.rx, step.listed, step.taken]
    exact ids.outside

end OwnStep

end DpdkWrapper.Tcp
