import DpdkWrapper.Echo.Echoes
import DpdkWrapper.Tcp.Events
import DpdkWrapper.Tcp.Ownership

/-!
# What the stack gives to the server

The server relies on two promises of the stack.  A connection for which `sendable` has
returned false is not sendable again, and the events of a slot come connection by connection.
Both hold in every interleaving of the two halves of the stack.
-/

namespace DpdkWrapper.Echo

open Tcp Threads Wire

/-- A returned call, as the server sees it. -/
def senderCall : TxEntry → Option SenderCall
  | .sendableReturned conn result => some (.sendable conn result)
  | .sendReturned conn bytes count => some (.send conn bytes count)
  | .closeReturned conn => some (.close conn)
  | _ => none

theorem senderCall_sendable {entry : TxEntry} {conn : ConnId} {result : Bool}
    (same : senderCall entry = some (.sendable conn result)) :
    entry = .sendableReturned conn result := by
  cases entry with
  | sendableReturned id answer =>
      cases same
      rfl
  | _ => cases same

/-- The events of a slot so far, the last one first: generations do not fall, and none is
beyond the slot's own. -/
structure Generational (i : Nat) (mem : Memory) : Prop where
  below : ∀ event, .event event ∈ mem.rx.log → event.conn.slot = i →
    event.conn.generation.toNat ≤ (mem.view i).opens
  order : mem.rx.log.Pairwise fun later earlier => ∀ event event', later = .event event →
    earlier = .event event' → event.conn.slot = i → event'.conn.slot = i →
      event'.conn.generation.toNat ≤ event.conn.generation.toNat

section Generational

variable {k : TcpStack} {i : Nat} {mem mem' : Memory}

theorem generational_initial (k : TcpStack) (i : Nat) : Generational i (Memory.initial k) where
  below _ member := by cases member
  order := .nil

theorem Generational.inStep {terms : Terms} (generational : Generational i mem)
    (ids : IdInvariant k i mem) (step : InStep terms mem mem') :
    Generational i mem' := by
  rcases step.logged.rx with ⟨entries, log, about⟩
  have grows := (step.slot i).opens_le
  have current : ∀ event, .event event ∈ entries → event.conn.slot = i →
      event.conn.generation.toNat = (mem.view i).opens := by
    rintro event member rfl
    rw [(about event member).1]
    exact ids.stage.number
  constructor
  case below =>
    intro event member here
    rw [log] at member
    rcases List.mem_append.mp member with new | old
    · rw [current event new here]
      exact grows
    · exact Nat.le_trans (generational.below event old here) grows
  case order =>
    rw [log, List.pairwise_append]
    refine ⟨List.pairwise_of_forall_mem_list ?_, generational.order, ?_⟩
    · rintro _ later _ earlier event event' rfl rfl here here'
      rw [current event later here, current event' earlier here']
    · rintro _ later _ earlier event event' rfl rfl here here'
      rw [current event later here]
      exact generational.below event' earlier here'

theorem Generational.uses {caller : Option ConnId} (generational : Generational i mem)
    (uses : Uses i caller mem mem') : Generational i mem' := by
  have step := uses.outStep
  constructor
  case below =>
    rw [step.rx, (step.slot i).opens]
    exact generational.below
  case order =>
    rw [step.rx]
    exact generational.order

end Generational

/-- All work of an event is about its connection. -/
theorem conn_of_mem_eventWorks {event : TcpEvent} {work : Work}
    (member : work ∈ eventWorks event) : work.conn = event.conn := by
  unfold eventWorks at member
  rcases kind : event.type with _ | _ | _ | _ | _
  all_goals
    rw [kind] at member
    simp only [List.not_mem_nil, List.mem_map, List.mem_singleton] at member
  · rcases member with ⟨_, _, rfl⟩
    rfl
  · rw [member]
  · rw [member]

theorem pairwise_forall {ι α : Type} {related : ι → α → α → Prop} {entries : List α}
    (each : ∀ i, entries.Pairwise (related i)) :
    entries.Pairwise fun first second => ∀ i, related i first second := by
  rw [List.pairwise_iff_getElem]
  intro first second inside inside' before i
  exact List.pairwise_iff_getElem.mp (each i) first second inside inside' before

/-- In every interleaving of the stack in which no slot has been opened 2^32 - 1 times, what
`sendable` has refused stays refused, and the events of a slot come with generations that do
not fall.  So does the work that the server makes of them. -/
theorem stack_keeps_promises {k : TcpStack} {admits : Memory → Task → Prop}
    {system : System k admits} (run : system.Reachable) (few : ∀ i, FewOpens i system.state) :
    ((system.state.tx.log.filterMap senderCall).Pairwise fun later earlier =>
      later.contradicts earlier = false) ∧
    ((events system.state.rx.log).Pairwise fun earlier later =>
      earlier.conn.slot = later.conn.slot →
        earlier.conn.generation.toNat ≤ later.conn.generation.toNat) ∧
    (worksOf (events system.state.rx.log)).Pairwise fun earlier later =>
      earlier.conn.slot = later.conn.slot →
        earlier.conn.generation.toNat ≤ later.conn.generation.toNat := by
  have ordered : (events system.state.rx.log).Pairwise fun earlier later =>
      earlier.conn.slot = later.conn.slot →
        earlier.conn.generation.toNat ≤ later.conn.generation.toNat := by
    have slots := pairwise_forall fun i =>
      (run.invariant (few i) (Generational i) (generational_initial k i)
        (fun _ _ ids generational step => generational.inStep ids step)
        fun _ _ _ _ generational uses => generational.uses uses).2.order
    rw [events, List.filterMap_reverse, List.pairwise_reverse, List.pairwise_filterMap]
    refine slots.imp fun rising later same earlier same' here => ?_
    exact rising _ later earlier (RxEntry.eq_of_pushed? same) (RxEntry.eq_of_pushed? same') rfl here
  refine ⟨?_, ordered, ?_⟩
  · have truthful := pairwise_forall fun conn : ConnId =>
      (run.truthful (few conn.slot)).2.afterRefusal
    rw [List.pairwise_filterMap]
    refine truthful.imp fun consistent call same call' same' => ?_
    rw [← Bool.not_eq_true, SenderCall.contradicts_iff]
    rintro ⟨conn, rfl, rfl⟩
    exact consistent conn (senderCall_sendable same') (senderCall_sendable same)
  · rw [worksOf, List.pairwise_flatMap]
    constructor
    · intro event _
      refine List.pairwise_of_forall_mem_list fun work member work' member' _ => ?_
      rw [conn_of_mem_eventWorks member, conn_of_mem_eventWorks member']
    · refine ordered.imp fun rising work member work' member' here => ?_
      rw [conn_of_mem_eventWorks member, conn_of_mem_eventWorks member'] at here ⊢
      exact rising here

/-- A closed connection is refused, before and after later calls on it, while that of the
next generation in its slot is not. -/
theorem stack_keeps_promises_of_reopened :
    let calls := singleSlotStale.state.tx.log.filterMap senderCall
    let generations := (events singleSlotStale.state.rx.log).map fun event => event.conn.generation
    calls = [.sendable ⟨0, 2⟩ true, .close ⟨0, 1⟩, .send ⟨0, 1⟩ [1] 0, .sendable ⟨0, 1⟩ false,
        .sendable ⟨0, 1⟩ false, .close ⟨0, 1⟩] ∧
      generations = [1, 1, 2] ∧
      (calls.Pairwise fun later earlier => later.contradicts earlier = false) ∧
      (events singleSlotStale.state.rx.log).Pairwise fun earlier later =>
        earlier.conn.slot = later.conn.slot →
          earlier.conn.generation.toNat ≤ later.conn.generation.toNat := by
  intro calls generations
  have few : ∀ i, FewOpens i singleSlotStale.state := by
    intro i
    have short : singleSlotStale.state.rx.log.length < openLimit := by decide +kernel
    exact Nat.lt_of_le_of_lt List.count_le_length short
  obtain ⟨consistent, ordered, _⟩ := stack_keeps_promises singleSlotStale_reachable few
  exact ⟨by decide +kernel, by decide +kernel, consistent, ordered⟩

end DpdkWrapper.Echo
