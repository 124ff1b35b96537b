import DpdkWrapper.Echo.Server

/-!
# From events to the ring

Whatever the outbound thread does meanwhile, the items that have been committed, followed by
those in the overflow queue, are the items of the events that have been handled, in order.
-/

namespace DpdkWrapper.Echo

open Tcp Threads Wire

/-- What a work item asks for. -/
structure Work where
  what : WorkKind
  conn : ConnId
  payload : List Byte
  deriving DecidableEq, Repr

namespace WorkItem

def work (item : WorkItem) : Work :=
  ⟨item.what, item.conn, item.bytes.take item.len.toNat⟩

/-- The payload is in the array. -/
def PayloadFits (item : WorkItem) : Prop :=
  item.len.toNat ≤ item.bytes.length

end WorkItem

/-- The work that an event asks for. -/
def eventWorks (event : TcpEvent) : List Work :=
  match event.type with
  | .accepted => []
  | .data => (chunks event.data.length event.data).map fun chunk => ⟨.data, event.conn, chunk⟩
  | .peerClosed => [⟨.peerClosed, event.conn, []⟩]
  | .reset => [⟨.reset, event.conn, []⟩]
  | .closed => []

def worksOf (events : List TcpEvent) : List Work :=
  events.flatMap eventWorks

theorem worksOf_concat (events : List TcpEvent) (event : TcpEvent) :
    worksOf (events ++ [event]) = worksOf events ++ eventWorks event := by
  simp [worksOf]

/-! ## Items -/

theorem chunks_length {fuel : Nat} {data chunk : List Byte} (member : chunk ∈ chunks fuel data) :
    chunk.length ≤ itemSize := by
  induction fuel generalizing data with
  | zero => cases member
  | succ fuel ih =>
      unfold chunks at member
      split at member
      · cases member
      · rcases List.mem_cons.mp member with rfl | later
        · exact List.length_take_le _ _
        · exact ih later

/-- The chunks are the payload. -/
theorem flatten_chunks {fuel : Nat} {data : List Byte} (enough : data.length ≤ fuel) :
    (chunks fuel data).flatten = data := by
  induction fuel generalizing data with
  | zero => exact (List.length_eq_zero_iff.mp (Nat.le_zero.mp enough)).symm
  | succ fuel ih =>
      unfold chunks
      split
      case isTrue empty => exact (List.isEmpty_iff.mp empty).symm
      case isFalse =>
        have shorter : (data.drop itemSize).length ≤ fuel := by
          rw [List.length_drop, itemSize]
          omega
        rw [List.flatten_cons, ih shorter, List.take_append_drop]

theorem work_dataItem (conn : ConnId) (junk : List Byte) {chunk : List Byte}
    (fits : chunk.length ≤ itemSize) :
    (dataItem conn junk chunk).work = ⟨.data, conn, chunk⟩ ∧
    (dataItem conn junk chunk).PayloadFits := by
  have count : (BitVec.ofNat 16 chunk.length).toNat = chunk.length := by
    rw [itemSize] at fits
    rw [BitVec.toNat_ofNat]
    exact Nat.mod_eq_of_lt (by omega)
  constructor
  · rw [WorkItem.work, dataItem, count, List.take_left]
  · rw [WorkItem.PayloadFits, dataItem, count, List.length_append]
    exact Nat.le_add_right _ _

theorem work_endItem (what : WorkKind) (conn : ConnId) (junk : List Byte) :
    (endItem what conn junk).work = ⟨what, conn, []⟩ ∧ (endItem what conn junk).PayloadFits :=
  ⟨rfl, Nat.zero_le _⟩

/-- The items of an event ask for its work. -/
theorem works_itemsFor (junk : List Byte) (event : TcpEvent) :
    (itemsFor junk event).map WorkItem.work = eventWorks event ∧
      ∀ item ∈ itemsFor junk event, item.PayloadFits := by
  unfold itemsFor eventWorks
  cases event.type with
  | accepted => exact ⟨rfl, fun _ member => absurd member List.not_mem_nil⟩
  | closed => exact ⟨rfl, fun _ member => absurd member List.not_mem_nil⟩
  | peerClosed =>
      refine ⟨rfl, fun item member => ?_⟩
      rw [List.mem_singleton.mp member]
      exact (work_endItem _ _ _).2
  | reset =>
      refine ⟨rfl, fun item member => ?_⟩
      rw [List.mem_singleton.mp member]
      exact (work_endItem _ _ _).2
  | data =>
      constructor
      · rw [List.map_map]
        refine List.map_congr_left fun chunk member => ?_
        exact (work_dataItem event.conn junk (chunks_length member)).1
      · intro item member
        rcases List.mem_map.mp member with ⟨chunk, inside, rfl⟩
        exact (work_dataItem event.conn junk (chunks_length inside)).2

/-- A copied item asks for the same work, whatever was in the slot. -/
theorem work_copyBytes {source target : WorkItem} (whole : source.PayloadFits)
    (what : target.what = source.what) (conn : target.conn = source.conn)
    (len : target.len = source.len) : (copyBytes source target).work = source.work := by
  have count : (source.bytes.take source.len.toNat).length = source.len.toNat :=
    List.length_take_of_le whole
  have front : (source.bytes.take source.len.toNat ++ target.bytes.drop source.len.toNat).take
      source.len.toNat = source.bytes.take source.len.toNat := by
    rw [List.take_append_of_le_length (Nat.le_of_eq count.symm), List.take_take, Nat.min_self]
  rw [WorkItem.work, copyBytes]
  dsimp only
  rw [what, conn, len, front]
  rfl

/-! ## What the threads do to each other -/

/-- The committed items are the first ones of the events. -/
def Server.ItemsCommitted (server : Server) : Prop :=
  server.ring.pushed.map WorkItem.work <+: worksOf server.handled

/-- What the inbound thread may do. -/
structure InboundEffect (server later : Server) : Prop where
  ring : SpscRing.ProducesAll server.ring later.ring
  pc : later.pc = server.pc
  stopSeen : later.stopSeen = server.stopSeen
  releasedGen : later.releasedGen = server.releasedGen
  calls : later.calls = server.calls
  handled : server.handled <+: later.handled
  fed : server.ItemsCommitted → later.ItemsCommitted

/-- What the outbound thread may do to what the inbound thread uses. -/
structure OutboundEffect (server later : Server) : Prop where
  ring : SpscRing.ConsumesAll server.ring later.ring
  overflow : later.overflow = server.overflow
  handled : later.handled = server.handled

theorem InboundEffect.refl (server : Server) : InboundEffect server server :=
  ⟨.refl, rfl, rfl, rfl, rfl, List.prefix_refl _, id⟩

theorem InboundEffect.trans {first second third : Server} (left : InboundEffect first second)
    (right : InboundEffect second third) : InboundEffect first third where
  ring := left.ring.trans right.ring
  pc := right.pc.trans left.pc
  stopSeen := right.stopSeen.trans left.stopSeen
  releasedGen := right.releasedGen.trans left.releasedGen
  calls := right.calls.trans left.calls
  handled := left.handled.trans right.handled
  fed held := right.fed (left.fed held)

theorem OutboundEffect.refl (server : Server) : OutboundEffect server server :=
  ⟨.refl, rfl, rfl⟩

theorem OutboundEffect.trans {first second third : Server} (left : OutboundEffect first second)
    (right : OutboundEffect second third) : OutboundEffect first third where
  ring := left.ring.trans right.ring
  overflow := right.overflow.trans left.overflow
  handled := right.handled.trans left.handled

theorem narrow_ringBits : ringBits < 64 := by decide

/-- The inbound thread's side of the agreement. -/
def feeding : Protocol Server where
  rely := OutboundEffect
  assume _ _ := True
  guarantee := InboundEffect
  rely_refl := .refl
  rely_trans _ _ _ := .trans
  guarantee_refl := .refl

/-! ## Filling a slot -/

/-- The producer has found a slot, and what it has stored there so far satisfies `holds`. -/
structure Prepared (pushed overflow : List WorkItem) (handled : List TcpEvent) (index : Nat)
    (holds : WorkItem → Prop) (server : Server) : Prop where
  represents : server.ring.Represents
  room : server.ring.HasRoom
  found : index = SpscRing.slot ringBits server.ring.head
  pushed : server.ring.pushed = pushed
  overflow : server.overflow = overflow
  handled : server.handled = handled
  item : holds (server.ring.items index)

section Filling

variable {pushed overflow : List WorkItem} {handled : List TcpEvent} {index : Nat}
  {holds after : WorkItem → Prop} {server later : Server}

theorem Prepared.stable (prepared : Prepared pushed overflow handled index holds server)
    (moves : OutboundEffect server later) : Prepared pushed overflow handled index holds later := by
  rcases SpscRing.spares_consumesAll moves.ring with ⟨head, items, same, room⟩
  constructor
  case represents => exact prepared.represents.consumesAll narrow_ringBits moves.ring
  case room => exact room prepared.room
  case found => rw [head]; exact prepared.found
  case pushed => exact same.trans prepared.pushed
  case overflow => exact moves.overflow.trans prepared.overflow
  case handled => exact moves.handled.trans prepared.handled
  case item => rw [items]; exact prepared.item

theorem store_meets (change : WorkItem → WorkItem) (after : WorkItem → Prop)
    (prepared : Prepared pushed overflow handled index holds server)
    (stores : ∀ item, holds item → after (change item)) :
    (Program.modify (·.onRing (·.store index change)) : Code Unit).Meets feeding
      (fun _ => Prepared pushed overflow handled index after) server := by
  refine Program.meets_modify fun later moves _ => ?_
  have ready := prepared.stable moves
  have found := ready.found
  subst found
  have filled : Prepared pushed overflow handled (SpscRing.slot ringBits later.ring.head) after
      (later.onRing (·.store (SpscRing.slot ringBits later.ring.head) change)) := by
    constructor
    case represents => exact ready.represents.store narrow_ringBits ready.room change
    case room => exact ready.room
    case found => rfl
    case pushed => exact ready.pushed
    case overflow => exact ready.overflow
    case handled => exact ready.handled
    case item =>
      rw [Server.onRing, SpscRing.items_store_self]
      exact stores _ ready.item
  refine ⟨?_, fun final further => filled.stable further⟩
  exact ⟨.single (.store ready.room change), rfl, rfl, rfl, rfl, List.prefix_refl _, id⟩

/-- An item is copied field by field. -/
theorem copyItem_meets {item : WorkItem} (whole : item.PayloadFits)
    (prepared : Prepared pushed overflow handled index (fun _ => True) server) :
    (copyItem index item).Meets feeding
      (fun _ => Prepared pushed overflow handled index (·.work = item.work)) server := by
  refine (store_meets (fun target => { target with what := item.what })
    (fun target => target.what = item.what) prepared fun _ _ => rfl).andThen ?_
  intro _ _ prepared
  refine (store_meets (fun target => { target with conn := item.conn })
    (fun target => target.what = item.what ∧ target.conn = item.conn) prepared
    fun _ what => ⟨what, rfl⟩).andThen ?_
  intro _ _ prepared
  refine (store_meets (fun target => { target with len := item.len })
    (fun target => target.what = item.what ∧ target.conn = item.conn ∧ target.len = item.len)
    prepared fun _ fields => ⟨fields.1, fields.2, rfl⟩).andThen ?_
  intro _ _ prepared
  exact store_meets (copyBytes item) _ prepared fun _ fields =>
    work_copyBytes whole fields.1 fields.2.1 fields.2.2

/-- What the inbound thread alone changes is as given. -/
structure InboundPart (pushed overflow : List WorkItem) (handled : List TcpEvent)
    (server : Server) :
    Prop where
  represents : server.ring.Represents
  pushed : server.ring.pushed = pushed
  overflow : server.overflow = overflow
  handled : server.handled = handled

theorem InboundPart.stable (standing : InboundPart pushed overflow handled server)
    (moves : OutboundEffect server later) : InboundPart pushed overflow handled later where
  represents := standing.represents.consumesAll narrow_ringBits moves.ring
  pushed := (SpscRing.spares_consumesAll moves.ring).2.2.1.trans standing.pushed
  overflow := moves.overflow.trans standing.overflow
  handled := moves.handled.trans standing.handled

/-- A slot that `reserve` returns is free, and stays so. -/
theorem reserve_meets (standing : InboundPart pushed overflow handled server) :
    reserve.Meets feeding
      (fun reserved later => InboundPart pushed overflow handled later ∧
        ∀ index, reserved = some index →
          Prepared pushed overflow handled index (fun _ => True) later) server := by
  refine Program.meets_read_bind fun first moves => ?_
  have standing := standing.stable moves
  refine Program.meets_read_bind fun second moves => ?_
  have sameHead := (SpscRing.spares_consumesAll moves.ring).1
  have standing := standing.stable moves
  rw [← sameHead]
  split
  case isTrue =>
    refine Program.meets_done fun later moves => ⟨standing.stable moves, ?_⟩
    rintro index ⟨⟩
  case isFalse free =>
    have room : second.ring.HasRoom := by
      by_contra full
      exact free ((standing.represents.isFull_iff narrow_ringBits).mpr full)
    have prepared : Prepared pushed overflow handled (SpscRing.slot ringBits second.ring.head)
        (fun _ => True) second :=
      ⟨standing.represents, room, rfl, standing.pushed, standing.overflow, standing.handled,
        trivial⟩
    refine Program.meets_done fun later moves => ⟨standing.stable moves, ?_⟩
    rintro index ⟨⟩
    exact prepared.stable moves

/-- A filled slot becomes the last item of the queue. -/
theorem commit_meets {work : Work}
    (prepared : Prepared pushed overflow handled index (·.work = work) server)
    (next : pushed.map WorkItem.work ++ [work] <+: worksOf handled) :
    commit.Meets feeding
      (fun _ later => ∃ item : WorkItem, item.work = work ∧
        InboundPart (pushed ++ [item]) overflow handled later) server := by
  refine Program.meets_read_bind fun first moves => ?_
  have prepared := prepared.stable moves
  refine Program.meets_modify fun second moves _ => ?_
  have sameHead := (SpscRing.spares_consumesAll moves.ring).1
  have prepared := prepared.stable moves
  rw [← sameHead]
  have filled := prepared.item
  rw [prepared.found] at filled
  have committed : InboundPart (pushed ++ [second.ring.items
      (SpscRing.slot ringBits second.ring.head)]) overflow handled
      (second.onRing (·.commit second.ring.head)) := by
    constructor
    case represents => exact prepared.represents.commit narrow_ringBits prepared.room
    case pushed => rw [Server.onRing, SpscRing.pushed_commit, prepared.pushed]
    case overflow => exact prepared.overflow
    case handled => exact prepared.handled
  refine ⟨?_, fun final further => ⟨_, filled, committed.stable further⟩⟩
  refine ⟨.single (.commit prepared.room), rfl, rfl, rfl, rfl, List.prefix_refl _, fun _ => ?_⟩
  rw [Server.ItemsCommitted, committed.pushed, committed.handled, List.map_append,
    List.map_singleton, filled]
  exact next

end Filling

/-! ## Handing over items -/

/-- The committed items, those in the overflow queue and the pending work are the work of the
events that have been handled. -/
structure Waiting (pending : List Work) (server : Server) : Prop where
  represents : server.ring.Represents
  order : server.ring.pushed.map WorkItem.work ++ server.overflow.map WorkItem.work ++ pending =
    worksOf server.handled
  whole : ∀ item ∈ server.overflow, item.PayloadFits

section Handover

variable {pending : List Work} {item : WorkItem} {server later : Server}

theorem Waiting.stable (waiting : Waiting pending server) (moves : OutboundEffect server later) :
    Waiting pending later where
  represents := waiting.represents.consumesAll narrow_ringBits moves.ring
  order := by
    rw [(SpscRing.spares_consumesAll moves.ring).2.2.1, moves.overflow, moves.handled]
    exact waiting.order
  whole := by
    rw [moves.overflow]
    exact waiting.whole

theorem Waiting.standing (waiting : Waiting pending server) :
    InboundPart server.ring.pushed server.overflow server.handled server :=
  ⟨waiting.represents, rfl, rfl, rfl⟩

theorem concat_below {α : Type} (front : List α) (entry : α) (rest : List α) :
    front ++ [entry] <+: front ++ entry :: rest :=
  ⟨rest, by rw [List.append_assoc, List.singleton_append]⟩

theorem spill_meets (whole : item.PayloadFits) (waiting : Waiting (item.work :: pending) server) :
    (spill item).Meets feeding (fun _ => Waiting pending) server := by
  refine Program.meets_modify fun later moves _ => ?_
  have waiting := waiting.stable moves
  have spilled : Waiting pending { later with overflow := later.overflow ++ [item] } := by
    constructor
    case represents => exact waiting.represents
    case order =>
      have order := waiting.order
      simp only [List.map_append, List.map_cons, List.map_nil, List.append_assoc,
        List.cons_append, List.nil_append] at order ⊢
      exact order
    case whole =>
      intro other member
      rcases List.mem_append.mp member with old | new
      · exact waiting.whole other old
      · rw [List.mem_singleton.mp new]
        exact whole
  refine ⟨?_, fun final further => spilled.stable further⟩
  exact ⟨.refl, rfl, rfl, rfl, rfl, List.prefix_refl _, id⟩

/-- `enqueue` keeps the order: it uses the ring only if nothing waits in the overflow queue. -/
theorem enqueue_meets (whole : item.PayloadFits) (waiting : Waiting (item.work :: pending) server) :
    (enqueue item).Meets feeding (fun _ => Waiting pending) server := by
  refine Program.meets_read_bind fun first moves => ?_
  have waiting := waiting.stable moves
  split
  case isFalse => exact spill_meets whole waiting
  case isTrue empty =>
    have nothing : first.overflow = [] := List.isEmpty_iff.mp empty
    have order := waiting.order
    refine (reserve_meets waiting.standing).andThen ?_
    rintro reserved later ⟨standing, slot⟩
    have waiting : Waiting (item.work :: pending) later := by
      refine ⟨standing.represents, ?_, ?_⟩
      · rw [standing.pushed, standing.overflow, standing.handled]
        exact order
      · rw [standing.overflow]
        exact waiting.whole
    cases reserved with
    | none => exact spill_meets whole waiting
    | some index =>
        rw [nothing, List.map_nil, List.append_nil] at order
        have next : first.ring.pushed.map WorkItem.work ++ [item.work] <+:
            worksOf first.handled := by
          rw [← order]
          exact concat_below _ _ _
        refine (copyItem_meets whole (slot index rfl)).andThen ?_
        intro _ _ prepared
        refine (commit_meets prepared next).mono ?_
        rintro _ final ⟨copy, same, standing⟩
        refine ⟨standing.represents, ?_, ?_⟩
        · rw [standing.pushed, standing.overflow, standing.handled, nothing, List.map_append,
            List.map_singleton, same, List.map_nil, List.append_nil, ← List.append_cons]
          exact order
        · rw [standing.overflow, nothing]
          exact fun _ member => absurd member List.not_mem_nil

/-- `drain_overflow` moves items to the ring as long as there is room. -/
theorem drainLoop_meets (fuel : Nat) (waiting : Waiting [] server) :
    (drainLoop fuel).Meets feeding (fun _ => Waiting []) server := by
  induction fuel generalizing server with
  | zero => exact Program.meets_done fun later moves => waiting.stable moves
  | succ fuel ih =>
      refine Program.meets_read_bind fun first moves => ?_
      have waiting := waiting.stable moves
      rcases entries : first.overflow with _ | ⟨item, rest⟩
      · exact Program.meets_done fun later moves => waiting.stable moves
      · have order := waiting.order
        have whole := waiting.whole
        rw [entries] at whole
        rw [entries, List.map_cons, List.append_nil] at order
        refine (reserve_meets waiting.standing).andThen ?_
        rintro reserved later ⟨standing, slot⟩
        cases reserved with
        | none =>
            refine Program.meets_done fun final moves => ?_
            have standing := standing.stable moves
            refine ⟨standing.represents, ?_, ?_⟩
            · rw [standing.pushed, standing.overflow, standing.handled]
              exact waiting.order
            · rw [standing.overflow]
              exact waiting.whole
        | some index =>
            have next : first.ring.pushed.map WorkItem.work ++ [item.work] <+:
                worksOf first.handled := by
              rw [← order]
              exact concat_below _ _ _
            refine (copyItem_meets (whole item List.mem_cons_self) (slot index rfl)).andThen ?_
            intro _ _ prepared
            refine (commit_meets prepared next).andThen ?_
            rintro _ final ⟨copy, same, standing⟩
            -- until `pop_front` the item is in the ring and in the overflow queue
            refine Program.meets_modify_bind fun last moves _ => ?_
            have standing := standing.stable moves
            refine ⟨⟨.refl, rfl, rfl, rfl, rfl, List.prefix_refl _, id⟩, ih ?_⟩
            refine ⟨standing.represents, ?_, ?_⟩
            · dsimp only
              rw [standing.pushed, standing.overflow, standing.handled, entries, List.tail_cons,
                List.map_append, List.map_singleton, same, List.append_nil, ← List.append_cons]
              exact order
            · dsimp only
              rw [standing.overflow, entries, List.tail_cons]
              exact fun other member => whole other (List.mem_cons_of_mem _ member)

theorem drainOverflow_meets (waiting : Waiting [] server) :
    drainOverflow.Meets feeding (fun _ => Waiting []) server := by
  refine Program.meets_read_bind fun first moves => ?_
  exact drainLoop_meets _ (waiting.stable moves)

/-- These items of an event are still to be handed over. -/
structure HandsOver (items : List WorkItem) (server : Server) : Prop where
  waiting : Waiting (items.map WorkItem.work) server
  whole : ∀ item ∈ items, item.PayloadFits

/-- The items of an event are handed over one after the other. -/
theorem enqueueAll_meets {items : List WorkItem} (start : HandsOver items server) :
    (Program.forEach enqueue items).Meets feeding (fun _ => Waiting []) server := by
  refine (Program.meets_forEach start ?_ ?_).mono ?_
  · exact fun rest _ _ moves held => ⟨held.waiting.stable moves, held.whole⟩
  · rintro item rest later ⟨waiting, whole⟩
    refine (enqueue_meets (whole item List.mem_cons_self) waiting).mono ?_
    exact fun _ _ waiting =>
      ⟨waiting, fun other member => whole other (List.mem_cons_of_mem _ member)⟩
  · exact fun _ _ held => held.waiting

theorem handle_meets (junk : List Byte) (event : TcpEvent) (waiting : Waiting [] server) :
    (handle junk event).Meets feeding (fun _ => Waiting []) server := by
  rcases works_itemsFor junk event with ⟨works, whole⟩
  refine Program.meets_modify_bind fun first moves _ => ?_
  have waiting := waiting.stable moves
  have order := waiting.order
  rw [List.append_nil] at order
  constructor
  · refine ⟨.refl, rfl, rfl, rfl, rfl, List.prefix_append _ _, fun fed => ?_⟩
    rw [Server.ItemsCommitted, worksOf_concat]
    exact fed.trans (List.prefix_append _ _)
  have noted : Waiting ((itemsFor junk event).map WorkItem.work)
      { first with handled := first.handled ++ [event] } := by
    refine ⟨waiting.represents, ?_, waiting.whole⟩
    dsimp only
    rw [worksOf_concat, works, order]
  refine (enqueueAll_meets ⟨noted, whole⟩).andThen ?_
  intro _ second waiting
  refine Program.meets_modify fun third moves _ => ?_
  have waiting := waiting.stable moves
  have same : (countEvent event third).ring = third.ring ∧
      (countEvent event third).overflow = third.overflow ∧
      (countEvent event third).handled = third.handled ∧
      (countEvent event third).pc = third.pc ∧
      (countEvent event third).stopSeen = third.stopSeen ∧
      (countEvent event third).releasedGen = third.releasedGen ∧
      (countEvent event third).calls = third.calls := by
    unfold countEvent
    cases event.type <;> exact ⟨rfl, rfl, rfl, rfl, rfl, rfl, rfl⟩
  rcases same with ⟨ring, overflow, handled, pc, stopSeen, releasedGen, calls⟩
  constructor
  · refine ⟨by rw [ring], pc, stopSeen, releasedGen, calls, by rw [handled], fun fed => ?_⟩
    rw [Server.ItemsCommitted, ring, handled]
    exact fed
  · intro final further
    refine Waiting.stable ⟨?_, ?_, ?_⟩ further
    · rw [ring]
      exact waiting.represents
    · rw [ring, overflow, handled]
      exact waiting.order
    · rw [overflow]
      exact waiting.whole

end Handover

/-- The inbound thread keeps its side, whatever events come. -/
theorem inboundLoop_keeps (queues : Nat) (allowed : Server → Server → Prop) :
    (inboundLoop queues).Keeps allowed (fun _ => feeding) (fun _ => Waiting []) where
  assumed _ _ _ _ := trivial
  starts := by
    rintro _ server _ _ waiting (⟨_, rfl, _⟩ | ⟨_, _, _, rfl, _⟩ | ⟨_, event, _, junk, _, rfl, _⟩)
    · exact drainOverflow_meets waiting
    · exact Program.meets_done fun later moves => waiting.stable moves
    · exact handle_meets junk event waiting

end DpdkWrapper.Echo
