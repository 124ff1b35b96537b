import DpdkWrapper.Echo.SenderTotals

/-!
# From the ring to the sender

The outbound thread serves the items in the order of the ring, whatever the inbound thread
does meanwhile.  The item it looks at stays as it is until `pop`.
-/

namespace DpdkWrapper.Echo

open Tcp Threads Wire

namespace Server

/-- The work that has been done. -/
def done (server : Server) : List Work :=
  server.ring.popped.map WorkItem.work

/-- The work that the outbound thread has seen. -/
def seen (server : Server) : List Work :=
  (server.ring.pushed.map WorkItem.work).take (server.ring.popped.length + 1)

/-- What holds of the calls at every moment: only received bytes are sent, in order, and no
connection is closed twice. -/
structure Faithful (server : Server) : Prop where
  echo : ∀ conn, echoed conn server.calls <+: received conn (worksOf server.handled)
  once : (closes server.calls).Nodup

/-- What the rest of the program owes to the server: a connection that has been refused is
refused from then on, and the connections of a slot come one after the other. -/
structure SenderContract (server : Server) : Prop where
  truthful : server.calls.Pairwise fun later earlier => later.contradicts earlier = false
  rising : GenerationsIncrease (worksOf server.handled)

end Server

/-- The outbound thread's side of the agreement. -/
def serving : Protocol Server where
  rely := InboundEffect
  assume _ later := later.SenderContract
  guarantee server later := OutboundEffect server later ∧ (server.Faithful → later.Faithful)
  rely_refl := .refl
  rely_trans _ _ _ := .trans
  guarantee_refl server := ⟨.refl server, id⟩

/-! ## What the outbound thread knows -/

/-- The accounts between two calls, where `part` of the current item has been sent. -/
structure Serves (part : ConnId → List Byte) (server : Server) : Prop where
  represents : server.ring.Represents
  fed : server.ItemsCommitted
  account : ∀ conn, SentSoFar conn server.done (part conn) server.stopSeen server.calls
  tally : ReleasedMatches server.seen server.releasedGen server.calls
  ended : ∀ work ∈ server.done, work.what ≠ .data → .close work.conn ∈ server.calls

/-- The item that is being served. -/
structure Current (index : Nat) (work : Work) (server : Server) : Prop where
  item : server.ring.HasItem
  found : index = SpscRing.slot ringBits server.ring.tail
  same : (server.ring.items index).work = work

section Knowledge

variable {part : ConnId → List Byte} {index : Nat} {work : Work} {server later : Server}

theorem InboundEffect.done (moves : InboundEffect server later) : later.done = server.done := by
  rw [Server.done, (SpscRing.spares_producesAll moves.ring).2.1]
  rfl

theorem InboundEffect.seen (moves : InboundEffect server later) : server.seen <+: later.seen := by
  rcases SpscRing.spares_producesAll moves.ring with ⟨_, popped, grows⟩
  rw [Server.seen, Server.seen, popped]
  exact (grows.map WorkItem.work).take _

theorem Serves.stable (serves : Serves part server) (moves : InboundEffect server later) :
    Serves part later where
  represents := serves.represents.producesAll narrow_ringBits moves.ring
  fed := moves.fed serves.fed
  account conn := by
    rw [moves.done, moves.stopSeen, moves.calls]
    exact serves.account conn
  tally := by
    rw [moves.releasedGen, moves.calls]
    exact serves.tally.mono fun work member => moves.seen.subset member
  ended := by
    rw [moves.done, moves.calls]
    exact serves.ended

section

variable (current : Current index work server) (represents : server.ring.Represents)
include current represents

theorem Current.stable (moves : InboundEffect server later) : Current index work later := by
  rcases represents.spares_producesAll narrow_ringBits current.item moves.ring with
    ⟨tail, _, item, same⟩
  refine ⟨item, ?_, ?_⟩
  · rw [tail]
    exact current.found
  · rw [current.found, same, ← current.found]
    exact current.same

/-- What has been seen is what has been done and the current item. -/
theorem Current.seen : server.seen = server.done ++ [work] := by
  have front := represents.front narrow_ringBits current.item
  have entry : (server.ring.pushed.map WorkItem.work)[server.ring.popped.length]? = some work := by
    rw [List.getElem?_map, front, ← current.found, Option.map_some, current.same]
  have before : (server.ring.pushed.map WorkItem.work).take server.ring.popped.length =
      server.done := by
    rw [← List.map_take, ← List.prefix_iff_eq_take.mp represents.order]
    rfl
  rw [Server.seen, List.take_add_one, entry, before]
  rfl

/-- It is work of an event that has been handled. -/
theorem Current.handled (fed : server.ItemsCommitted) :
    server.done ++ [work] <+: worksOf server.handled := by
  rw [← current.seen represents]
  exact (List.take_prefix _ _).trans fed

/-- No connection of the slot that has been seen is newer than the current one. -/
theorem Current.older (fed : server.ItemsCommitted)
    (rising : GenerationsIncrease (worksOf server.handled)) :
    ∀ earlier ∈ server.seen, earlier.conn.slot = work.conn.slot →
      earlier.conn.generation.toNat ≤ work.conn.generation.toNat := by
  have order := rising.order.sublist (current.handled represents fed).sublist
  rw [List.pairwise_append] at order
  rw [current.seen represents]
  intro earlier member here
  rcases List.mem_append.mp member with before | now
  · exact order.2.2 earlier before work List.mem_cons_self here
  · rw [List.mem_singleton.mp now]

theorem Current.mem_seen : work ∈ server.seen := by
  rw [current.seen represents]
  exact List.mem_append_right _ List.mem_cons_self

end

end Knowledge

/-- Between two rounds. -/
inductive BetweenRounds (server : Server) : Prop
  | polling (pc : server.pc = .polling) (serves : Serves (fun _ => []) server)
  | sending (index sent : Nat) (work : Work) (pc : server.pc = .sending index sent)
      (serves : Serves (fun conn => (work.bytesFor conn).take sent) server)
      (current : Current index work server) (data : work.what = .data)
      (going : server.stopSeen = false)
  | stopped (pc : server.pc = .stopped) (serves : Serves (fun _ => []) server)

theorem BetweenRounds.stable {server later : Server} (resting : BetweenRounds server)
    (moves : InboundEffect server later) : BetweenRounds later := by
  cases resting with
  | polling pc serves => exact .polling (moves.pc.trans pc) (serves.stable moves)
  | sending index sent work pc serves current data going =>
      exact .sending index sent work (moves.pc.trans pc) (serves.stable moves)
        (current.stable serves.represents moves) data (moves.stopSeen.trans going)
  | stopped pc serves => exact .stopped (moves.pc.trans pc) (serves.stable moves)

/-! ## `pop` -/

/-- The current item is done with. -/
structure Completed (index : Nat) (work : Work) (server : Server) : Prop where
  represents : server.ring.Represents
  fed : server.ItemsCommitted
  current : Current index work server
  account : ∀ conn, SentSoFar conn (server.done ++ [work]) [] server.stopSeen server.calls
  tally : ReleasedMatches server.seen server.releasedGen server.calls
  ended : ∀ other ∈ server.done ++ [work], other.what ≠ .data → .close other.conn ∈ server.calls

section Rounds

variable {part : ConnId → List Byte} {index : Nat} {work : Work} {server later : Server}

theorem Completed.stable (completed : Completed index work server)
    (moves : InboundEffect server later) :
    Completed index work later where
  represents := completed.represents.producesAll narrow_ringBits moves.ring
  fed := moves.fed completed.fed
  current := completed.current.stable completed.represents moves
  account conn := by
    rw [moves.done, moves.stopSeen, moves.calls]
    exact completed.account conn
  tally := by
    rw [moves.releasedGen, moves.calls]
    exact completed.tally.mono fun work member => moves.seen.subset member
  ended := by
    rw [moves.done, moves.calls]
    exact completed.ended

theorem popItem_meets (completed : Completed index work server) :
    popItem.Meets serving (fun _ => BetweenRounds) server := by
  refine Program.meets_read_bind fun first moves => ?_
  have completed := completed.stable moves
  refine Program.meets_modify fun second moves _ => ?_
  have sameTail := (SpscRing.spares_producesAll moves.ring).1
  have completed := completed.stable moves
  rw [← sameTail]
  have item := completed.current.item
  have more : ({ second.onRing (·.pop second.ring.tail) with pc := .polling } : Server).done =
      second.done ++ [work] := by
    rw [Server.done, Server.onRing, SpscRing.popped_pop, List.map_append, List.map_singleton,
      ← completed.current.found, completed.current.same]
    rfl
  have grows : ∀ work ∈ second.seen,
      work ∈ ({ second.onRing (·.pop second.ring.tail) with pc := .polling } : Server).seen := by
    intro work member
    rw [Server.seen, Server.onRing, SpscRing.popped_pop, List.length_append]
    exact List.take_subset_take_left _ (Nat.le_add_right _ _) member
  refine ⟨⟨⟨.single (.pop item), rfl, rfl⟩, fun faithful => ⟨faithful.echo, faithful.once⟩⟩,
    fun final further => BetweenRounds.stable (.polling rfl ?_) further⟩
  constructor
  case represents => exact completed.represents.pop narrow_ringBits item
  case fed => exact completed.fed
  case account =>
    intro conn
    rw [more]
    exact completed.account conn
  case tally => exact completed.tally.mono grows
  case ended =>
    rw [more]
    exact completed.ended

/-! ## `close_once` -/

/-- `released_gen_` has been stored, and `close` is about to be called. -/
structure Closing (index : Nat) (work : Work) (server : Server) : Prop where
  represents : server.ring.Represents
  fed : server.ItemsCommitted
  current : Current index work server
  account : ∀ conn, SentSoFar conn server.done [] server.stopSeen server.calls
  ended : ∀ other ∈ server.done, other.what ≠ .data → .close other.conn ∈ server.calls
  tally : ∃ released, ReleasedMatches server.seen released server.calls ∧
    released work.conn.slot ≠ work.conn.generation ∧
    server.releasedGen = Function.update released work.conn.slot work.conn.generation

theorem Closing.stable (closing : Closing index work server) (moves : InboundEffect server later) :
    Closing index work later where
  represents := closing.represents.producesAll narrow_ringBits moves.ring
  fed := moves.fed closing.fed
  current := closing.current.stable closing.represents moves
  account conn := by
    rw [moves.done, moves.stopSeen, moves.calls]
    exact closing.account conn
  ended := by
    rw [moves.done, moves.calls]
    exact closing.ended
  tally := by
    rcases closing.tally with ⟨released, tally, different, same⟩
    refine ⟨released, ?_, different, moves.releasedGen.trans same⟩
    rw [moves.calls]
    exact tally.mono fun work member => moves.seen.subset member

/-- An item that is not data has no bytes. -/
theorem bytesFor_of_ne_data (other : work.what ≠ .data) (conn : ConnId) :
    work.bytesFor conn = [] :=
  if_neg fun both => other both.1

theorem closed_ended {done : List Work} {calls : List SenderCall}
    (closed : .close work.conn ∈ calls)
    (ended : ∀ other ∈ done, other.what ≠ .data → .close other.conn ∈ calls) :
    ∀ other ∈ done ++ [work], other.what ≠ .data → .close other.conn ∈ calls := by
  intro other member notData
  rcases List.mem_append.mp member with before | now
  · exact ended other before notData
  · rw [List.mem_singleton.mp now]
    exact closed

theorem closeOnce_meets (serves : Serves (fun _ => []) server)
    (current : Current index work server) (other : work.what ≠ .data) :
    (closeOnce work.conn).Meets serving (fun _ => Completed index work) server := by
  have silent : ∀ conn, ([] : List Byte) <+: work.bytesFor conn := fun _ => List.nil_prefix
  have whole : ∀ conn, [] = work.bytesFor conn := fun conn => (bytesFor_of_ne_data other conn).symm
  refine Program.meets_read_bind_assuming fun first moves regular => ?_
  have current := current.stable serves.represents moves
  have serves := serves.stable moves
  split
  case isFalse same =>
    -- the connection has been closed before
    have same : first.releasedGen work.conn.slot = work.conn.generation := by
      simpa using same
    have valid := regular.rising.valid work
      ((current.handled serves.represents serves.fed).subset
        (List.mem_append_right _ List.mem_cons_self))
    have closed : .close work.conn ∈ first.calls := by
      rcases serves.tally.made work.conn.slot with zero | made
      · exact absurd (same.symm.trans zero) valid
      · rwa [same] at made
    refine Program.meets_done fun later moves => Completed.stable ?_ moves
    exact ⟨serves.represents, serves.fed, current,
      fun conn => (serves.account conn).finish (silent conn) (Or.inl (whole conn)), serves.tally,
      closed_ended closed serves.ended⟩
  case isTrue different =>
    have different : first.releasedGen work.conn.slot ≠ work.conn.generation := by
      simpa using different
    refine Program.meets_modify_bind fun second moves _ => ?_
    have current := current.stable serves.represents moves
    have serves := serves.stable moves
    rw [← moves.releasedGen] at different
    refine ⟨⟨⟨.refl, rfl, rfl⟩, fun faithful => ⟨faithful.echo, faithful.once⟩⟩, ?_⟩
    have closing : Closing index work { second with
        releasedGen :=
          Function.update second.releasedGen work.conn.slot work.conn.generation } :=
      ⟨serves.represents, serves.fed, ⟨current.item, current.found, current.same⟩, serves.account,
        serves.ended, _, serves.tally, different, rfl⟩
    refine Program.meets_modify fun third moves regular => ?_
    have closing := closing.stable moves
    rcases closing.tally with ⟨released, tally, different, same⟩
    have older := closing.current.older closing.represents closing.fed regular.rising
    have tally := tally.close (closing.current.mem_seen closing.represents) rfl older different
    rw [← same] at tally
    refine ⟨⟨⟨.refl, rfl, rfl⟩, fun faithful => ⟨faithful.echo, tally.once⟩⟩, ?_⟩
    have completed : Completed index work (third.call (.close work.conn)) := by
      refine ⟨closing.represents, closing.fed,
        ⟨closing.current.item, closing.current.found, closing.current.same⟩, ?_, tally, ?_⟩
      · exact fun conn =>
          ((closing.account conn).cons rfl).finish (silent conn) (Or.inl (whole conn))
      · exact closed_ended List.mem_cons_self fun work member notData =>
          List.mem_cons_of_mem _ (closing.ended work member notData)
    exact fun final further => completed.stable further

/-- Both kinds of end are served alike. -/
theorem serveEnd_meets (serves : Serves (fun _ => []) server)
    (current : Current index work server) (other : work.what ≠ .data) :
    (do
      let conn ← Program.read (·.ring.items index |>.conn)
      closeOnce conn
      popItem : Code Unit).Meets serving (fun _ => BetweenRounds) server := by
  refine Program.meets_read_bind fun first moves => ?_
  have current := current.stable serves.represents moves
  have sameConn : (first.ring.items index).conn = work.conn :=
    congrArg Work.conn current.same
  rw [sameConn]
  refine (closeOnce_meets (serves.stable moves) current other).andThen ?_
  exact fun _ _ completed => popItem_meets completed

/-! ## Rounds -/

theorem pollRing_meets (env : RoundEnv) (serves : Serves (fun _ => []) server)
    (pc : server.pc = .polling) (stops : server.stopSeen = true → env.stop = true) :
    (pollRing env).Meets serving (fun _ => BetweenRounds) server := by
  unfold pollRing
  split
  case isTrue =>
    refine Program.meets_modify fun first moves _ => ?_
    have serves := serves.stable moves
    refine ⟨⟨⟨.refl, rfl, rfl⟩, fun faithful => ⟨faithful.echo, faithful.once⟩⟩, ?_⟩
    intro final further
    refine BetweenRounds.stable (.stopped rfl ?_) further
    exact ⟨serves.represents, serves.fed, fun conn => (serves.account conn).stop, serves.tally,
      serves.ended⟩
  case isFalse running =>
    have going : server.stopSeen = false := by
      rcases seen : server.stopSeen with _ | _
      · rfl
      · exact absurd (stops seen) running
    refine Program.meets_read_bind fun first moves => ?_
    have going := moves.stopSeen.trans going
    have pc := moves.pc.trans pc
    have serves := serves.stable moves
    refine Program.meets_read_bind fun second moves => ?_
    have sameTail := (SpscRing.spares_producesAll moves.ring).1
    have going := moves.stopSeen.trans going
    have pc := moves.pc.trans pc
    have serves := serves.stable moves
    rw [← sameTail]
    split
    case isTrue =>
      exact Program.meets_done fun later moves =>
        .polling (moves.pc.trans pc) (serves.stable moves)
    case isFalse different =>
      have item : second.ring.HasItem := by
        by_contra empty
        exact different (beq_iff_eq.mpr ((serves.represents.isEmpty_iff narrow_ringBits).mpr empty))
      have current : Current (SpscRing.slot ringBits second.ring.tail) _ second := ⟨item, rfl, rfl⟩
      generalize SpscRing.slot ringBits second.ring.tail = index at current ⊢
      generalize named : (second.ring.items index).work = work at current
      refine Program.meets_read_bind fun third moves => ?_
      have current := current.stable serves.represents moves
      have going := moves.stopSeen.trans going
      have serves := serves.stable moves
      have sameWhat : (third.ring.items index).what = work.what := congrArg Work.what current.same
      rw [sameWhat]
      rcases kind : work.what with _ | _ | _
      · refine Program.meets_modify fun fourth moves _ => ?_
        have current := current.stable serves.represents moves
        have going := moves.stopSeen.trans going
        have serves := serves.stable moves
        refine ⟨⟨⟨.refl, rfl, rfl⟩, fun faithful => ⟨faithful.echo, faithful.once⟩⟩, ?_⟩
        have entered : BetweenRounds { fourth with pc := .sending index 0 } := by
          refine .sending index 0 work rfl ?_ ?_ kind going
          · exact ⟨serves.represents, serves.fed, serves.account, serves.tally, serves.ended⟩
          · exact ⟨current.item, current.found, current.same⟩
        exact fun final further => entered.stable further
      · exact serveEnd_meets serves current (by rw [kind]; rintro ⟨⟩)
      · exact serveEnd_meets serves current (by rw [kind]; rintro ⟨⟩)

/-- The item in the retry loop is done with. -/
theorem Serves.complete {sent : Nat}
    (serves : Serves (fun conn => (work.bytesFor conn).take sent) server)
    (current : Current index work server) (data : work.what = .data)
    (reason : ∀ conn, work.conn = conn → work.payload.length ≤ sent ∨
      .sendable conn false ∈ server.calls ∨ server.stopSeen = true) :
    Completed index work server where
  represents := serves.represents
  fed := serves.fed
  current := current
  tally := serves.tally
  account conn := by
    refine (serves.account conn).finish (List.take_prefix _ _) ?_
    by_cases here : work.conn = conn
    · have bytes : work.bytesFor conn = work.payload := if_pos ⟨data, here⟩
      rw [bytes]
      exact (reason conn here).imp_left List.take_of_length_le
    · have bytes : work.bytesFor conn = [] := if_neg fun both => here both.2
      rw [bytes, List.take_nil]
      exact Or.inl rfl
  ended := by
    intro other member notData
    rcases List.mem_append.mp member with before | now
    · exact serves.ended other before notData
    · rw [List.mem_singleton.mp now] at notData
      exact absurd data notData

theorem sendRest_meets {sent : Nat} (take : Nat)
    (serves : Serves (fun conn => (work.bytesFor conn).take sent) server)
    (current : Current index work server) (data : work.what = .data)
    (going : server.stopSeen = false) (unrefused : .sendable work.conn false ∉ server.calls) :
    (sendRest index sent take).Meets serving (fun _ => BetweenRounds) server := by
  refine Program.meets_read_bind fun first moves => ?_
  have current := current.stable serves.represents moves
  have going := moves.stopSeen.trans going
  have serves := serves.stable moves
  rw [← moves.calls] at unrefused
  have sameConn : (first.ring.items index).conn = work.conn := congrArg Work.conn current.same
  have samePayload : (first.ring.items index).bytes.take (first.ring.items index).len.toNat =
      work.payload := congrArg Work.payload current.same
  dsimp only
  rw [← List.drop_take, samePayload, sameConn]
  generalize min take (work.payload.drop sent).length = count
  refine Program.meets_modify fun second moves _ => ?_
  have current := current.stable serves.represents moves
  have going := moves.stopSeen.trans going
  have serves := serves.stable moves
  rw [← moves.calls] at unrefused
  have account : ∀ conn, SentSoFar conn second.done ((work.bytesFor conn).take (sent + count)) false
      (.send work.conn (work.payload.drop sent) count :: second.calls) := by
    intro conn
    have before := serves.account conn
    rw [going] at before
    by_cases here : work.conn = conn
    · subst here
      have bytes : work.bytesFor work.conn = work.payload := if_pos ⟨data, rfl⟩
      rw [bytes] at before ⊢
      rw [List.take_add]
      exact before.send unrefused _ count
    · have bytes : work.bytesFor conn = [] := if_neg fun both => here both.2
      rw [bytes, List.take_nil] at before ⊢
      exact before.cons (echoed_send_of_ne here _ _ _)
  have tally : ReleasedMatches second.seen second.releasedGen
      (.send work.conn (work.payload.drop sent) count :: second.calls) :=
    serves.tally.cons (by simp)
  constructor
  · refine ⟨⟨.refl, rfl, rfl⟩, fun faithful => ⟨fun conn => ?_, faithful.once⟩⟩
    have below := (account conn).below (List.take_prefix _ _)
    exact below.trans (received_mono conn (current.handled serves.represents serves.fed))
  · have advanced : BetweenRounds
        { second.call (.send work.conn (work.payload.drop sent) count) with
          pc := .sending index (sent + count) } := by
      refine .sending index (sent + count) work rfl ?_ ?_ data going
      · refine ⟨serves.represents, serves.fed, fun conn => ?_, tally, ?_⟩
        · have after := account conn
          rw [← going] at after
          exact after
        · exact fun other member notData =>
            List.mem_cons_of_mem _ (serves.ended other member notData)
      · exact ⟨current.item, current.found, current.same⟩
    exact fun final further => advanced.stable further

theorem retry_meets {sent : Nat} (env : RoundEnv)
    (serves : Serves (fun conn => (work.bytesFor conn).take sent) server)
    (current : Current index work server) (data : work.what = .data)
    (going : server.stopSeen = false) :
    (retry index sent env).Meets serving (fun _ => BetweenRounds) server := by
  refine Program.meets_read_bind fun first moves => ?_
  have current := current.stable serves.represents moves
  have going := moves.stopSeen.trans going
  have serves := serves.stable moves
  have sameConn : (first.ring.items index).conn = work.conn := congrArg Work.conn current.same
  have short : work.payload.length ≤ (first.ring.items index).len.toNat := by
    rw [← current.same]
    exact List.length_take_le _ _
  split
  case isFalse finished =>
    refine popItem_meets (serves.complete current data fun _ _ => Or.inl ?_)
    exact Nat.le_trans short (Nat.le_of_not_lt finished)
  case isTrue =>
    rw [sameConn]
    refine Program.meets_modify_bind fun second moves regular => ?_
    have current := current.stable serves.represents moves
    have going := moves.stopSeen.trans going
    have serves := serves.stable moves
    refine ⟨⟨⟨.refl, rfl, rfl⟩, fun faithful => ⟨faithful.echo, faithful.once⟩⟩, ?_⟩
    have serves : Serves (fun conn => (work.bytesFor conn).take sent)
        (second.call (.sendable work.conn env.sendable)) :=
      ⟨serves.represents, serves.fed, fun conn => (serves.account conn).cons rfl,
        serves.tally.cons (by simp), fun other member notData =>
          List.mem_cons_of_mem _ (serves.ended other member notData)⟩
    have current : Current index work (second.call (.sendable work.conn env.sendable)) :=
      ⟨current.item, current.found, current.same⟩
    split
    case isFalse refused =>
      refine popItem_meets (serves.complete current data fun conn here => Or.inr (Or.inl ?_))
      rw [← here, Bool.eq_false_of_not_eq_true refused]
      exact List.mem_cons_self
    case isTrue sendable =>
      have unrefused : .sendable work.conn false ∉
          (second.call (.sendable work.conn env.sendable)).calls := by
        have truthful := regular.truthful
        rw [Server.call, List.pairwise_cons] at truthful
        rw [Server.call, sendable]
        intro member
        rcases List.mem_cons.mp member with same | before
        · cases same
        · have consistent := truthful.1 _ before
          rw [sendable, SenderCall.contradicts, beq_self_eq_true] at consistent
          cases consistent
      split
      case isFalse => exact sendRest_meets env.take serves current data going unrefused
      case isTrue =>
        refine Program.meets_modify_bind fun third moves _ => ?_
        have current := current.stable serves.represents moves
        have serves := serves.stable moves
        refine ⟨⟨⟨.refl, rfl, rfl⟩, fun faithful => ⟨faithful.echo, faithful.once⟩⟩, ?_⟩
        have stopping : Serves (fun conn => (work.bytesFor conn).take sent)
            { third with stopSeen := true } :=
          ⟨serves.represents, serves.fed, fun conn => (serves.account conn).stop, serves.tally,
            serves.ended⟩
        exact popItem_meets (stopping.complete ⟨current.item, current.found, current.same⟩ data
          fun _ _ => Or.inr (Or.inr rfl))

end Rounds

/-- The outbound thread keeps its side, whatever the sender answers. -/
theorem outboundLoop_keeps :
    outboundLoop.Keeps (fun _ later => later.SenderContract) (fun _ => serving)
      (fun _ => BetweenRounds) where
  assumed _ _ _ regular := regular
  starts := by
    rintro _ server _ _ resting ⟨env, stops, ⟨polling, rfl⟩ | ⟨index, sent, sending, rfl⟩⟩
    · cases resting with
      | polling pc serves => exact pollRing_meets env serves pc stops
      | sending _ _ _ pc =>
          rw [polling] at pc
          cases pc
      | stopped pc =>
          rw [polling] at pc
          cases pc
    · cases resting with
      | polling pc =>
          rw [sending] at pc
          cases pc
      | sending _ _ _ pc serves current data going =>
          rw [sending] at pc
          cases pc
          exact retry_meets env serves current data going
      | stopped pc =>
          rw [sending] at pc
          cases pc

end DpdkWrapper.Echo
