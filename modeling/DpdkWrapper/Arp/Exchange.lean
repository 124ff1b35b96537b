import DpdkWrapper.Arp.Merge

/-!
# An exchange of request and reply

A host that asks for a neighbor's address and the neighbor that answers end up with
each other in their tables.  Both frames travel as bytes, so what the builder lays out
has to be what the receiver reads.
-/

namespace DpdkWrapper.Arp

open Wire

/-- `handle_arp` on a frame that another host built. -/
def receive (frame : ArpFrame) (localMac : Mac) (localIp : BitVec 32) (neighbors : NeighborTable)
    (room : Nat) (pool : Bool) : Option ArpOutcome :=
  (Arrival.mk (frameBytes frame) room pool).handle localMac localIp neighbors

/-- What is known after one entry was written. -/
def NeighborTable.Gains (before after : NeighborTable) (ip : BitVec 32) (mac : Mac) : Prop :=
  ∀ query, after.lookup query = if query = ip then some mac else before.lookup query

section Receiving

variable {frame : ArpFrame} {localMac : Mac} {localIp : BitVec 32} {neighbors : NeighborTable}
  {room : Nat} {pool : Bool}

theorem receive_handled (small : frame.opcode < 65536) (localMac : Mac) (localIp : BitVec 32)
    (neighbors : NeighborTable) (room : Nat) (pool : Bool) :
    ∃ outcome, receive frame localMac localIp neighbors room pool = some outcome ∧
      Handled localMac localIp neighbors room pool
        (some ⟨frame.opcode, frame.sha, frame.sip, frame.tip⟩) outcome := by
  obtain ⟨outcome, returned, handled⟩ :=
    handleArp_handled localMac localIp neighbors room pool (frameBytes frame)
  rw [arpBody_frameBytes frame small] at handled
  exact ⟨outcome, returned, handled⟩

/-- A frame for us from a host that the table can take is merged. -/
theorem merge_gains (body : ArpBody) (reachable : neighbors.Reachable)
    (forUs : body.tip = localIp) (named : body.sip ≠ 0)
    (accepts : (neighbors.lookup body.sip).isSome ∨ neighbors.size < neighbors.capacity) :
    (body.merge localIp neighbors).1 = true ∧
      neighbors.Gains (body.merge localIp neighbors).2 body.sip body.sha := by
  obtain ⟨known, refines⟩ := reachable.refines
  have merged : (body.merge localIp neighbors).1 = true := by
    rw [body.merge_iff refines]
    rcases accepts with present | notFull
    · exact .inl present
    · exact .inr ⟨forUs, named, notFull⟩
  refine ⟨merged, ?_⟩
  intro query
  split
  · rename_i same
    rw [same, body.lookup_merge_self refines merged]
  · rename_i other
    exact body.lookup_merge_of_ne refines (Ne.symm other)

/-- A bystander sends nothing and adds no entry. -/
theorem receive_of_bystander (small : frame.opcode < 65536) (reachable : neighbors.Reachable)
    (forOthers : frame.tip ≠ localIp) :
    ∃ outcome, receive frame localMac localIp neighbors room pool = some outcome ∧
      outcome.reply = none ∧
      ∀ ip, neighbors.lookup ip = none → outcome.neighbors.lookup ip = none := by
  obtain ⟨known, refines⟩ := reachable.refines
  obtain ⟨outcome, returned, handled⟩ :=
    receive_handled small localMac localIp neighbors room pool
  refine ⟨outcome, returned, ?_, ?_⟩
  · rw [← Option.not_isSome_iff_eq_none, handled.reply_isSome]
    rintro ⟨body, same, asks, _⟩
    cases same
    exact forOthers asks.1
  · intro ip unknown
    rw [handled.neighbors_eq, Option.elim_some]
    by_cases sender : frame.sip = ip
    · subst sender
      rw [← Option.not_isSome_iff_eq_none] at unknown ⊢
      rw [ArpBody.isSome_lookup_merge refines, ArpBody.merge_iff refines]
      rintro (present | ⟨forUs, _⟩)
      · exact unknown present
      · exact forOthers forUs
    · rw [ArpBody.lookup_merge_of_ne refines sender]
      exact unknown

end Receiving

/-- An exchange resolves both ends.  Host A broadcasts a request for B's address; B
replies to A's hardware address, A learns from the reply and sends nothing more.  Each
table then gains the other host's entry and nothing else, and no third host that sees
one of the frames sends anything or adds an entry. -/
theorem arp_exchange_resolves {macA macB : Mac} {ipA ipB : BitVec 32} (namedA : ipA ≠ 0)
    (namedB : ipB ≠ 0) {tableA tableB : NeighborTable} (reachableA : tableA.Reachable)
    (reachableB : tableB.Reachable)
    (acceptsA : (tableA.lookup ipB).isSome ∨ tableA.size < tableA.capacity)
    (acceptsB : (tableB.lookup ipA).isSome ∨ tableB.size < tableB.capacity)
    {roomA roomB : Nat} {poolA poolB : Bool} (yieldsA : Yields roomA poolA)
    (yieldsB : Yields roomB poolB) :
    ∃ request reply atB atA,
      buildArpRequest roomA poolA macA ipA ipB = some request ∧
      receive request macB ipB tableB roomB poolB = some atB ∧
      atB.result = .replied ∧ atB.reply = some reply ∧
      slice (frameBytes reply) 0 6 = some (toBytes 6 macA.toNat) ∧
      receive reply macA ipA tableA roomA poolA = some atA ∧
      atA.result = .learned ∧ atA.reply = none ∧
      tableA.Gains atA.neighbors ipB macB ∧ tableB.Gains atB.neighbors ipA macA ∧
      ∀ frame, frame = request ∨ frame = reply →
        ∀ (macC : Mac) (ipC : BitVec 32) (tableC : NeighborTable) (roomC : Nat) (poolC : Bool),
          ipC ≠ ipA → ipC ≠ ipB → tableC.Reachable →
          ∃ atC, receive frame macC ipC tableC roomC poolC = some atC ∧ atC.reply = none ∧
            ∀ ip, tableC.lookup ip = none → atC.neighbors.lookup ip = none := by
  let request : ArpFrame := ⟨BitVec.allOnes 48, opRequest, macA, ipA, 0, ipB⟩
  let reply : ArpFrame := ⟨macA, opReply, macB, ipB, macA, ipA⟩
  have requestSmall : request.opcode < 65536 := (by decide : opRequest < 65536)
  have replySmall : reply.opcode < 65536 := (by decide : opReply < 65536)
  have built : buildArpRequest roomA poolA macA ipA ipB = some request :=
    buildArp_eq_some yieldsA _ _ _ _ _ _
  obtain ⟨atB, returnedB, handledB⟩ := receive_handled requestSmall macB ipB tableB roomB poolB
  obtain ⟨atA, returnedA, handledA⟩ := receive_handled replySmall macA ipA tableA roomA poolA
  obtain ⟨_, gainsB⟩ :=
    merge_gains ⟨opRequest, macA, ipA, ipB⟩ reachableB rfl namedA acceptsB
  obtain ⟨mergedA, gainsA⟩ :=
    merge_gains ⟨opReply, macB, ipB, ipA⟩ reachableA rfl namedB acceptsA
  have replied : atB.result = .replied ∧ atB.reply = some reply := by
    cases handledB with
    | asked asks answered =>
        rw [← answered, buildArp_eq_some yieldsB]
        exact ⟨rfl, rfl⟩
    | merged asksNot => exact absurd ⟨rfl, rfl⟩ asksNot
  have learned : atA.result = .learned ∧ atA.reply = none := by
    cases handledA with
    | asked asks _ => exact absurd asks.2 (by decide : opReply ≠ opRequest)
    | merged _ => exact ⟨if_pos mergedA, rfl⟩
  refine ⟨request, reply, atB, atA, built, returnedB, replied.1, replied.2, ?_, returnedA,
    learned.1, learned.2, ?_, ?_, ?_⟩
  · simp only [frameBytes, ethernetHeader, List.append_assoc, slice_first, toBytes_length, reply]
  · rw [handledA.neighbors_eq]
    exact gainsA
  · rw [handledB.neighbors_eq]
    exact gainsB
  · rintro frame (rfl | rfl) macC ipC tableC roomC poolC otherA otherB reachable
    · exact receive_of_bystander requestSmall reachable (Ne.symm otherB)
    · exact receive_of_bystander replySmall reachable (Ne.symm otherA)

/-- A table with room that knows a third host. -/
def roomyTable : NeighborTable :=
  ((NeighborTable.make 2).learn 0x0a4d0003 0x020000000003).2

/-- A full table that knows 10.77.0.1 under a hardware address it no longer has. -/
def staleTable : NeighborTable :=
  ((NeighborTable.make 1).learn 0x0a4d0001 0x0200000000ff).2

/-- Two hosts that know other things resolve each other: one of them adds an entry, the other
one has no room for another and refreshes the one it has. -/
theorem arp_exchange_resolves_of_used_tables :
    ∃ request reply atB atA,
      buildArpRequest 2048 true 0x020000000001 0x0a4d0001 0x0a4d0002 = some request ∧
      receive request 0x020000000002 0x0a4d0002 staleTable 2048 true = some atB ∧
      atB.reply = some reply ∧
      receive reply 0x020000000001 0x0a4d0001 roomyTable 2048 true = some atA ∧
      atA.neighbors.lookup 0x0a4d0002 = some 0x020000000002 ∧
      atA.neighbors.lookup 0x0a4d0003 = some 0x020000000003 ∧
      atB.neighbors.lookup 0x0a4d0001 = some 0x020000000001 := by
  have reachableA : roomyTable.Reachable := ⟨2, [.learn 0x0a4d0003 0x020000000003], rfl⟩
  have reachableB : staleTable.Reachable := ⟨1, [.learn 0x0a4d0001 0x0200000000ff], rfl⟩
  have acceptsA : roomyTable.size < roomyTable.capacity := by decide
  have acceptsB : (staleTable.lookup 0x0a4d0001).isSome := by decide
  have yields : Yields 2048 true := ⟨rfl, by decide⟩
  obtain ⟨request, reply, atB, atA, built, received, _, replied, _, returned, _, _, gainsA, gainsB,
    _⟩ := arp_exchange_resolves (by decide : (0x0a4d0001 : BitVec 32) ≠ 0)
      (by decide : (0x0a4d0002 : BitVec 32) ≠ 0) reachableA reachableB (.inr acceptsA)
      (.inl acceptsB) yields yields
  have third : roomyTable.lookup 0x0a4d0003 = some 0x020000000003 := by decide
  exact ⟨request, reply, atB, atA, built, received, replied, returned, gainsA _,
    (gainsA _).trans third, gainsB _⟩

end DpdkWrapper.Arp
