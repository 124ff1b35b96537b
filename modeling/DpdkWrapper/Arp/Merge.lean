import DpdkWrapper.Arp.Bounded
import DpdkWrapper.Arp.Frames

/-!
# Merging received frames

`Handled` says what `handle_arp` makes of a frame, whatever its bytes.  Over a whole
run of frames the table then knows exactly the senders that addressed us while it had
room, each under the hardware address it used last.
-/

namespace DpdkWrapper.Arp

open Wire
open DpdkWrapper.Tcp (packetLength packetLength_le)

/-! ## One frame -/

namespace ArpBody

/-- A request for our address. -/
def Asks (localIp : BitVec 32) (body : ArpBody) : Prop :=
  body.tip = localIp ∧ body.opcode = opRequest

/-- The sender merged into the table: added if the packet is for us, refreshed in any
case. -/
def merge (localIp : BitVec 32) (neighbors : NeighborTable) (body : ArpBody) :
    Bool × NeighborTable :=
  if body.tip = localIp then
    neighbors.learn body.sip body.sha
  else
    neighbors.updateIfPresent body.sip body.sha

end ArpBody

section Handling

variable (localMac : Mac) (localIp : BitVec 32) (neighbors : NeighborTable) (room : Nat)
  (pool : Bool)

/-- What `handle_arp` does with a frame that carries this ARP packet, or none. -/
inductive Handled : Option ArpBody → ArpOutcome → Prop
  | apart {result : ArpResult} (untouched : result = .notArp ∨ result = .ignored) :
      Handled none ⟨result, neighbors, none⟩
  | asked {body : ArpBody} {reply : Option ArpFrame} (asks : body.Asks localIp)
      (built : buildArp room pool body.sha opReply localMac localIp body.sha body.sip = reply) :
      Handled (some body)
        ⟨if reply.isSome then .replied else .learned, (body.merge localIp neighbors).2, reply⟩
  | merged {body : ArpBody} (asksNot : ¬ body.Asks localIp) :
      Handled (some body)
        ⟨if (body.merge localIp neighbors).1 then .learned else .ignored,
          (body.merge localIp neighbors).2, none⟩

theorem handleArp_handled (frame : List Byte) :
    ∃ outcome,
      handleArp frame (packetLength frame) localMac localIp neighbors room pool = some outcome ∧
        Handled localMac localIp neighbors room pool (arpBody frame) outcome := by
  have fits := packetLength_le frame
  rw [handleArp, arpBody]
  by_cases header : packetLength frame < 14
  · rw [if_pos header, if_pos (by omega)]
    exact ⟨_, rfl, .apart (.inl rfl)⟩
  have typeInside : 12 + 2 ≤ frame.length := by omega
  obtain ⟨etherType, typeRead⟩ := field_of_le typeInside
  rw [if_neg header, typeRead]
  simp only [Option.bind_eq_bind, Option.bind_some]
  by_cases whole : packetLength frame < 14 + 28
  · rw [if_pos whole, if_pos whole]
    split
    · exact ⟨_, rfl, .apart (.inl rfl)⟩
    · exact ⟨_, rfl, .apart (.inr rfl)⟩
  -- From here on the frame has all the bytes that are read.
  have read (offset count : Nat) (inside : offset + count ≤ 14 + 28) :
      ∃ value, field frame offset count = some value := field_of_le (by omega)
  obtain ⟨hardware, hardwareRead⟩ := read 14 2 (by decide)
  obtain ⟨protocol, protocolRead⟩ := read 16 2 (by decide)
  obtain ⟨hlen, hlenRead⟩ := read 18 1 (by decide)
  obtain ⟨plen, plenRead⟩ := read 19 1 (by decide)
  obtain ⟨opcode, opcodeRead⟩ := read 20 2 (by decide)
  obtain ⟨sha, shaRead⟩ := read 22 6 (by decide)
  obtain ⟨sip, sipRead⟩ := read 28 4 (by decide)
  obtain ⟨tip, tipRead⟩ := read 38 4 (by decide)
  simp only [whole, hardwareRead, protocolRead, hlenRead, plenRead, opcodeRead, shaRead, sipRead,
    tipRead, Option.bind_some, Option.map_some, if_false]
  by_cases arp : etherType = 0x0806
  · rw [if_neg (not_not.mpr arp)]
    by_cases ipv4 : hardware = 1 ∧ protocol = 0x0800 ∧ hlen = 6 ∧ plen = 4
    · have accepted : ¬ (hardware ≠ 1 ∨ protocol ≠ 0x0800 ∨ hlen ≠ 6 ∨ plen ≠ 4) := by omega
      rw [if_neg accepted, if_pos (And.intro arp ipv4)]
      by_cases asks : BitVec.ofNat 32 tip = localIp ∧ opcode = opRequest
      · rw [if_pos asks]
        exact ⟨_, rfl, .asked asks rfl⟩
      · rw [if_neg asks]
        exact ⟨_, rfl, .merged asks⟩
    · have refused : hardware ≠ 1 ∨ protocol ≠ 0x0800 ∨ hlen ≠ 6 ∨ plen ≠ 4 := by omega
      rw [if_pos refused, if_neg fun wellFormed : etherType = 0x0806 ∧ _ => ipv4 wellFormed.2]
      exact ⟨_, rfl, .apart (.inr rfl)⟩
  · rw [if_pos arp, if_neg fun wellFormed => arp wellFormed.1]
    exact ⟨_, rfl, .apart (.inl rfl)⟩

end Handling

/-! ## The merge -/

namespace ArpBody

open NeighborTable (Refines)

variable {neighbors : NeighborTable} {known : Known} {localIp : BitVec 32}

theorem merge_refines (refines : neighbors.Refines known) (body : ArpBody) :
    ∃ after : Known, (body.merge localIp neighbors).2.Refines after := by
  rw [merge]
  split
  · exact ⟨_, (refines.learn body.sip body.sha).2⟩
  · exact ⟨_, (refines.updateIfPresent body.sip body.sha).2⟩

@[simp]
theorem merge_capacity (localIp : BitVec 32) (neighbors : NeighborTable) (body : ArpBody) :
    (body.merge localIp neighbors).2.capacity = neighbors.capacity := by
  rw [merge]
  split
  · exact neighbors.learn_capacity _ _
  · exact neighbors.updateIfPresent_capacity _ _

/-- The merge succeeds on a known sender, and on a new one that addressed us while
there was room. -/
theorem merge_iff (refines : neighbors.Refines known) (body : ArpBody) :
    (body.merge localIp neighbors).1 = true ↔
      (neighbors.lookup body.sip).isSome ∨
        body.tip = localIp ∧ body.sip ≠ 0 ∧ neighbors.size < neighbors.capacity := by
  have named : (neighbors.lookup body.sip).isSome → body.sip ≠ 0 := by
    intro present zero
    rw [zero] at present
    exact refines.zero_notMem (refines.mem_iff.mpr present)
  rw [merge]
  split
  · rename_i forUs
    rw [refines.learn_iff]
    constructor
    · rintro ⟨proper, present | notFull⟩
      · exact .inl present
      · exact .inr ⟨forUs, proper, notFull⟩
    · rintro (present | ⟨_, proper, notFull⟩)
      · exact ⟨named present, .inl present⟩
      · exact ⟨proper, .inr notFull⟩
  · rename_i forOthers
    rw [refines.updateIfPresent_iff, or_iff_left]
    rintro ⟨forUs, _⟩
    exact forOthers forUs

/-- A merge that fails changes nothing. -/
theorem merge_eq_of_false {body : ArpBody} (failed : (body.merge localIp neighbors).1 = false) :
    (body.merge localIp neighbors).2 = neighbors := by
  rw [merge] at failed ⊢
  split at failed
  · rw [if_pos ‹_›]
    exact NeighborTable.learn_eq_of_false failed
  · rw [if_neg ‹_›]
    exact NeighborTable.updateIfPresent_eq_of_false failed

theorem lookup_merge_self (refines : neighbors.Refines known) {body : ArpBody}
    (merged : (body.merge localIp neighbors).1 = true) :
    (body.merge localIp neighbors).2.lookup body.sip = some body.sha := by
  rw [merge] at merged ⊢
  split at merged
  · rw [if_pos ‹_›]
    exact refines.lookup_learn merged
  · rw [if_neg ‹_›]
    exact refines.lookup_updateIfPresent merged

/-- The sender is known afterwards exactly if the merge succeeded. -/
theorem isSome_lookup_merge (refines : neighbors.Refines known) (body : ArpBody) :
    ((body.merge localIp neighbors).2.lookup body.sip).isSome ↔
      (body.merge localIp neighbors).1 = true := by
  cases merged : (body.merge localIp neighbors).1 with
  | true =>
      rw [lookup_merge_self refines merged]
      exact iff_of_true rfl rfl
  | false =>
      rw [merge_eq_of_false merged]
      refine iff_of_false ?_ Bool.false_ne_true
      intro present
      rw [(body.merge_iff refines).mpr (.inl present)] at merged
      cases merged

/-- Only the sender's entry may change. -/
theorem lookup_merge_of_ne (refines : neighbors.Refines known) {body : ArpBody}
    {ip : BitVec 32} (other : body.sip ≠ ip) :
    (body.merge localIp neighbors).2.lookup ip = neighbors.lookup ip := by
  have unaffected (call : TableCall) (elsewhere : call.address = body.sip) :
      (call.perform neighbors).2.lookup ip = neighbors.lookup ip := by
    rw [call.lookup_perform refines, call.writes_of_ne (by rwa [elsewhere]), Option.none_or]
  rw [merge]
  split
  · exact unaffected (.learn body.sip body.sha) rfl
  · exact unaffected (.updateIfPresent body.sip body.sha) rfl

end ArpBody

/-! ## What is reported -/

/-- A request for us whose sender cannot be learned, when no reply can be built
either. -/
def Misreported (localIp : BitVec 32) (neighbors : NeighborTable) (room : Nat) (pool : Bool)
    (body : ArpBody) : Prop :=
  body.Asks localIp ∧ ¬ Yields room pool ∧
    (body.sip = 0 ∨
      neighbors.lookup body.sip = none ∧ neighbors.capacity ≤ neighbors.size)

/-- Such a sender is one that the merge does not accept. -/
theorem misreported_iff {neighbors : NeighborTable} {known : Known}
    (refines : neighbors.Refines known) {localIp : BitVec 32} {room : Nat} {pool : Bool}
    {body : ArpBody} :
    Misreported localIp neighbors room pool body ↔
      body.Asks localIp ∧ ¬ Yields room pool ∧ (body.merge localIp neighbors).1 = false := by
  rw [Misreported]
  refine and_congr_right fun asks => and_congr_right fun _ => ?_
  rw [← Bool.not_eq_true, body.merge_iff refines, ← Option.not_isSome_iff_eq_none]
  have unnamed : body.sip = 0 → ¬(neighbors.lookup body.sip).isSome := by
    intro zero present
    rw [zero] at present
    exact refines.zero_notMem (refines.mem_iff.mpr present)
  constructor
  · rintro (zero | ⟨unknown, full⟩)
    · rintro (present | ⟨_, named, _⟩)
      · exact unnamed zero present
      · exact named zero
    · rintro (present | ⟨_, _, notFull⟩)
      · exact unknown present
      · exact Nat.not_lt.mpr full notFull
  · intro failed
    by_cases zero : body.sip = 0
    · exact .inl zero
    · refine .inr ⟨fun present => failed (.inl present), ?_⟩
      by_contra notFull
      exact failed (.inr ⟨asks.1, zero, Nat.not_le.mp notFull⟩)

/-- A request for us without a reply is reported as `learned`, whatever became of the
merge. -/
theorem Handled.of_dry {localMac : Mac} {localIp : BitVec 32} {neighbors : NeighborTable}
    {room : Nat} {pool : Bool} {body : ArpBody} {outcome : ArpOutcome}
    (handled : Handled localMac localIp neighbors room pool (some body) outcome)
    (asks : body.Asks localIp) (dry : ¬ Yields room pool) :
    outcome = ⟨.learned, (body.merge localIp neighbors).2, none⟩ := by
  cases handled with
  | merged asksNot => exact absurd asks asksNot
  | @asked _ reply _ built =>
      have none : reply = none := by
        rw [← Option.not_isSome_iff_eq_none, ← built, buildArp_isSome]
        exact dry
      rw [none]
      rfl

/-- After `learned` the table holds the sender under its hardware address; after `ignored`
and `not_arp` nothing has changed and there is no reply. -/
structure Truthful (frame : List Byte) (neighbors : NeighborTable) (outcome : ArpOutcome) :
    Prop where
  learned : outcome.result = .learned →
    ∃ body, arpBody frame = some body ∧ outcome.neighbors.lookup body.sip = some body.sha
  untouched : outcome.result = .ignored ∨ outcome.result = .notArp →
    outcome.neighbors = neighbors ∧ outcome.reply = none

/-- `handle_arp` reports the truth if and only if the frame is not a request for us whose
sender it cannot learn at a moment when it cannot build a reply either.  Such a request is
reported as `learned`, and the table does not hold its sender. -/
theorem handleArp_reports_truth (frame : List Byte) (localMac : Mac) (localIp : BitVec 32)
    (neighbors : NeighborTable) (reachable : neighbors.Reachable) (room : Nat) (pool : Bool) :
    ∃ outcome,
      handleArp frame (packetLength frame) localMac localIp neighbors room pool = some outcome ∧
      (Truthful frame neighbors outcome ↔
        ∀ body, arpBody frame = some body → ¬ Misreported localIp neighbors room pool body) ∧
      ∀ body, arpBody frame = some body → Misreported localIp neighbors room pool body →
        outcome.result = .learned ∧ outcome.neighbors.lookup body.sip = none := by
  obtain ⟨known, refines⟩ := reachable.refines
  obtain ⟨outcome, returned, handled⟩ :=
    handleArp_handled localMac localIp neighbors room pool frame
  have truthful (reported : ∀ body, arpBody frame = some body →
      ¬ Misreported localIp neighbors room pool body) : Truthful frame neighbors outcome := by
    generalize carried : arpBody frame = content at handled reported
    cases handled with
    | apart untouched =>
        refine ⟨?_, fun _ => ⟨rfl, rfl⟩⟩
        rintro rfl
        simp at untouched
    | @asked body reply asks built =>
        cases reply with
        | some reply => exact ⟨by simp, by simp⟩
        | none =>
            refine ⟨fun _ => ⟨body, carried, ?_⟩, by simp⟩
            have dry : ¬ Yields room pool := by
              rw [← buildArp_isSome, built]
              simp
            have learnable := reported body rfl
            rw [misreported_iff refines] at learnable
            apply body.lookup_merge_self refines
            rw [← Bool.not_eq_false]
            exact fun failed => learnable ⟨asks, dry, failed⟩
    | @merged body asksNot =>
        cases done : (body.merge localIp neighbors).1 with
        | true =>
            exact ⟨fun _ => ⟨body, carried, body.lookup_merge_self refines done⟩, by simp⟩
        | false =>
            exact ⟨by simp, fun _ => ⟨body.merge_eq_of_false done, rfl⟩⟩
  have misreports (body : ArpBody) (carried : arpBody frame = some body)
      (misreported : Misreported localIp neighbors room pool body) :
      outcome.result = .learned ∧ outcome.neighbors.lookup body.sip = none := by
    obtain ⟨asks, dry, failed⟩ := (misreported_iff refines).mp misreported
    rw [carried] at handled
    rw [handled.of_dry asks dry]
    refine ⟨rfl, ?_⟩
    rw [← Option.not_isSome_iff_eq_none, body.isSome_lookup_merge refines, failed]
    exact Bool.false_ne_true
  refine ⟨outcome, returned, ⟨?_, truthful⟩, misreports⟩
  intro truth body carried misreported
  obtain ⟨learned, unknown⟩ := misreports body carried misreported
  obtain ⟨sender, same, known⟩ := truth.learned learned
  obtain rfl : body = sender := Option.some.inj (carried.symm.trans same)
  rw [unknown] at known
  cases known

/-- A request for 10.77.0.2 from the given address. -/
def requestFrom (sip : BitVec 32) : ArpFrame where
  ethDst := BitVec.allOnes 48
  opcode := opRequest
  sha := 0x020000000001
  sip := sip
  tha := 0
  tip := 0x0a4d0002

/-- A request that meets an exhausted pool is reported as learned, and its sender is in the
table. -/
theorem handleArp_reports_truth_of_request :
    ∃ outcome,
      handleArp (frameBytes (requestFrom 0x0a4d0001))
        (packetLength (frameBytes (requestFrom 0x0a4d0001))) 0x020000000002 0x0a4d0002
        (.make 256) 2048 false = some outcome ∧
      outcome.result = .learned ∧
      outcome.neighbors.lookup 0x0a4d0001 = some 0x020000000001 := by
  have carried := arpBody_frameBytes (requestFrom 0x0a4d0001) (by decide)
  obtain ⟨outcome, returned, truth, _⟩ := handleArp_reports_truth
    (frameBytes (requestFrom 0x0a4d0001)) 0x020000000002 0x0a4d0002 (.make 256)
    (NeighborTable.reachable_make 256) 2048 false
  have truthful : Truthful (frameBytes (requestFrom 0x0a4d0001)) (.make 256) outcome := by
    rw [truth]
    rintro body same ⟨_, _, zero | ⟨_, full⟩⟩
    · rw [carried] at same
      cases same
      exact absurd zero (by decide)
    · exact absurd full (by decide)
  have learned : outcome.result = .learned := by
    obtain ⟨outcome', again, handled⟩ := handleArp_handled 0x020000000002 0x0a4d0002 (.make 256)
      2048 false (frameBytes (requestFrom 0x0a4d0001))
    obtain rfl : outcome' = outcome := Option.some.inj (again.symm.trans returned)
    rw [carried] at handled
    rw [handled.of_dry ⟨rfl, rfl⟩ (by rintro ⟨⟨⟩, _⟩)]
  obtain ⟨body, same, holds⟩ := truthful.learned learned
  rw [carried] at same
  cases same
  exact ⟨outcome, returned, learned, holds⟩

/-- An address probe, a request from 0.0.0.0, that meets an exhausted pool is reported as
learned although its sender is not in the table. -/
theorem handleArp_misreports_probe :
    ∃ outcome,
      handleArp (frameBytes (requestFrom 0)) (packetLength (frameBytes (requestFrom 0)))
        0x020000000002 0x0a4d0002 (.make 256) 2048 false = some outcome ∧
      outcome.result = .learned ∧
      ∃ body, arpBody (frameBytes (requestFrom 0)) = some body ∧
        outcome.neighbors.lookup body.sip = none := by
  obtain ⟨outcome, returned, handled⟩ := handleArp_handled 0x020000000002 0x0a4d0002 (.make 256)
    2048 false (frameBytes (requestFrom 0))
  have carried := arpBody_frameBytes (requestFrom 0) (by decide)
  rw [carried] at handled ⊢
  obtain rfl := handled.of_dry ⟨rfl, rfl⟩ (by rintro ⟨⟨⟩, _⟩)
  exact ⟨_, returned, rfl, _, rfl, rfl⟩

/-! ## Runs -/

/-- A received frame, with the pool as it is when the frame is handled. -/
structure Arrival where
  frame : List Byte
  room : Nat
  pool : Bool

namespace Arrival

/-- `handle_arp` on this frame. -/
def handle (localMac : Mac) (localIp : BitVec 32) (neighbors : NeighborTable)
    (arrival : Arrival) : Option ArpOutcome :=
  handleArp arrival.frame (packetLength arrival.frame) localMac localIp neighbors arrival.room
    arrival.pool

/-- The hardware address that a well-formed frame gives for a sender. -/
def shaOf (ip : BitVec 32) (arrival : Arrival) : Option Mac :=
  (arpBody arrival.frame).bind fun body => if body.sip = ip then some body.sha else none

/-- A well-formed frame that this sender addressed to us. -/
def Addresses (localIp ip : BitVec 32) (arrival : Arrival) : Prop :=
  ∃ body, arpBody arrival.frame = some body ∧ body.sip = ip ∧ body.tip = localIp

end Arrival

/-- The table that a run of frames leaves. -/
def afterArrivals (localMac : Mac) (localIp : BitVec 32) (neighbors : NeighborTable)
    (arrivals : List Arrival) : Option NeighborTable :=
  arrivals.foldlM (fun table arrival => (arrival.handle localMac localIp table).map
    ArpOutcome.neighbors) neighbors

/-- The hardware address in the latest well-formed frame of a sender. -/
def latestSha (ip : BitVec 32) : List Arrival → Option Mac
  | [] => none
  | arrival :: rest => (latestSha ip rest).or (arrival.shaOf ip)

/-- `since` is an end of the run that starts with a frame in which this sender addressed
us, at a moment when the table was not full. -/
def AdmittedSince (localMac : Mac) (localIp : BitVec 32) (capacity : Nat) (ip : BitVec 32)
    (arrivals since : List Arrival) : Prop :=
  ∃ before arrival after table, arrivals = before ++ arrival :: after ∧
    since = arrival :: after ∧ arrival.Addresses localIp ip ∧
    afterArrivals localMac localIp (.make capacity) before = some table ∧ table.size < capacity

section Runs

variable {localMac : Mac} {localIp : BitVec 32} {capacity : Nat} {ip : BitVec 32}
  {arrivals since : List Arrival} {neighbors table : NeighborTable}

theorem Handled.neighbors_eq {room : Nat} {pool : Bool} {carried : Option ArpBody}
    {outcome : ArpOutcome}
    (handled : Handled localMac localIp neighbors room pool carried outcome) :
    outcome.neighbors = carried.elim neighbors fun body => (body.merge localIp neighbors).2 := by
  cases handled <;> rfl

theorem Handled.reply_isSome {room : Nat} {pool : Bool} {carried : Option ArpBody}
    {outcome : ArpOutcome}
    (handled : Handled localMac localIp neighbors room pool carried outcome) :
    outcome.reply.isSome ↔
      ∃ body, carried = some body ∧ body.Asks localIp ∧ Yields room pool := by
  cases handled with
  | apart => simp
  | @asked body reply asks built =>
      rw [← built, buildArp_isSome]
      constructor
      · intro yields
        exact ⟨body, rfl, asks, yields⟩
      · rintro ⟨_, _, _, yields⟩
        exact yields
  | @merged body asksNot =>
      constructor
      · intro impossible
        cases impossible
      · rintro ⟨_, same, asks, _⟩
        cases same
        exact absurd asks asksNot

/-- A sender's hardware address comes from a body. -/
theorem Arrival.shaOf_eq_some {arrival : Arrival} {mac : Mac} :
    arrival.shaOf ip = some mac ↔
      ∃ body, arpBody arrival.frame = some body ∧ body.sip = ip ∧ body.sha = mac := by
  rw [shaOf, Option.bind_eq_some_iff]
  simp only [Option.ite_none_right_eq_some, Option.some.injEq]

theorem latestSha_append (before after : List Arrival) :
    latestSha ip (before ++ after) = (latestSha ip after).or (latestSha ip before) := by
  induction before with
  | nil => rw [List.nil_append, latestSha, Option.or_none]
  | cons arrival rest ih => rw [List.cons_append, latestSha, ih, latestSha, Option.or_assoc]

/-- Nothing before the admission matters for the latest address. -/
theorem AdmittedSince.latestSha
    (admitted : AdmittedSince localMac localIp capacity ip arrivals since) :
    (latestSha ip since).isSome ∧ Arp.latestSha ip arrivals = Arp.latestSha ip since := by
  obtain ⟨before, arrival, after, _, rfl, rfl, ⟨body, carried, sender, _⟩, _⟩ := admitted
  have sha : arrival.shaOf ip = some body.sha :=
    Arrival.shaOf_eq_some.mpr ⟨body, carried, sender, rfl⟩
  have known : (Arp.latestSha ip (arrival :: after)).isSome := by
    rw [Arp.latestSha, sha]
    cases Arp.latestSha ip after <;> rfl
  refine ⟨known, ?_⟩
  rw [latestSha_append, Option.or_of_isSome known]

theorem afterArrivals_concat (arrival : Arrival) :
    afterArrivals localMac localIp neighbors (arrivals ++ [arrival]) =
      (afterArrivals localMac localIp neighbors arrivals).bind fun table =>
        (arrival.handle localMac localIp table).map ArpOutcome.neighbors := by
  rw [afterArrivals, List.foldlM_append]
  congr 1
  funext table
  rw [List.foldlM_cons]
  exact bind_pure _

/-- A sender is admitted in the run so far, or by its last frame. -/
theorem admittedSince_concat (arrival : Arrival) :
    (∃ since, AdmittedSince localMac localIp capacity ip (arrivals ++ [arrival]) since) ↔
      (∃ since, AdmittedSince localMac localIp capacity ip arrivals since) ∨
        arrival.Addresses localIp ip ∧
          ∃ table, afterArrivals localMac localIp (.make capacity) arrivals = some table ∧
            table.size < capacity := by
  constructor
  · rintro ⟨_, before, first, after, table, split, rfl, addresses, reached, room⟩
    rcases List.eq_nil_or_concat after with rfl | ⟨middle, last, rfl⟩
    · obtain ⟨rfl, same⟩ := List.append_inj' split rfl
      cases same
      exact .inr ⟨addresses, table, reached, room⟩
    · rw [List.concat_eq_append, ← List.cons_append, ← List.append_assoc] at split
      obtain ⟨rfl, _⟩ := List.append_inj' split rfl
      exact .inl ⟨_, before, first, middle, table, rfl, rfl, addresses, reached, room⟩
  · rintro (⟨_, before, first, after, table, rfl, rfl, addresses, reached, room⟩ |
      ⟨addresses, table, reached, room⟩)
    · exact ⟨_, before, first, after ++ [arrival], table, by simp, rfl, addresses, reached, room⟩
    · exact ⟨_, arrivals, arrival, [], table, rfl, rfl, addresses, reached, room⟩

/-- What a table records of a run. -/
structure Records (localMac : Mac) (localIp : BitVec 32) (capacity : Nat)
    (arrivals : List Arrival) (table : NeighborTable) : Prop where
  refines : ∃ known, table.Refines known
  bound : table.capacity = capacity
  admitted : ∀ ip, (table.lookup ip).isSome ↔
    ip ≠ 0 ∧ ∃ since, AdmittedSince localMac localIp capacity ip arrivals since
  latest : ∀ ip, (table.lookup ip).isSome → table.lookup ip = latestSha ip arrivals

namespace Records

/-- The table of the start records the empty run. -/
theorem make : Records localMac localIp capacity [] (.make capacity) := by
  have refines := NeighborTable.make_refines capacity
  have unknown (ip : BitVec 32) : (NeighborTable.make capacity).lookup ip = none := by
    rw [refines.lookup, Finmap.lookup_empty]
  refine ⟨⟨∅, refines⟩, rfl, ?_, ?_⟩
  · intro ip
    rw [unknown]
    refine iff_of_false Bool.false_ne_true ?_
    rintro ⟨_, _, before, arrival, after, _, split, _⟩
    exact List.append_ne_nil_of_right_ne_nil before (List.cons_ne_nil arrival after) split.symm
  · intro ip present
    rw [unknown] at present
    cases present

/-- A frame that says nothing about a sender leaves what is recorded of it. -/
theorem admitted_of_silent {arrival : Arrival} (silent : arrival.shaOf ip = none) :
    (∃ since, AdmittedSince localMac localIp capacity ip (arrivals ++ [arrival]) since) ↔
      ∃ since, AdmittedSince localMac localIp capacity ip arrivals since := by
  rw [admittedSince_concat, or_iff_left]
  rintro ⟨⟨body, carried, sender, _⟩, _⟩
  have sha := Arrival.shaOf_eq_some.mpr ⟨body, carried, sender, rfl⟩
  rw [silent] at sha
  cases sha

theorem latestSha_of_silent {arrival : Arrival} (silent : arrival.shaOf ip = none) :
    latestSha ip (arrivals ++ [arrival]) = latestSha ip arrivals := by
  rw [latestSha_append, latestSha, latestSha, silent]
  rfl

/-- One more frame is recorded. -/
theorem concat (records : Records localMac localIp capacity arrivals table)
    (reached : afterArrivals localMac localIp (.make capacity) arrivals = some table)
    (arrival : Arrival) :
    Records localMac localIp capacity (arrivals ++ [arrival])
      ((arpBody arrival.frame).elim table fun body => (body.merge localIp table).2) := by
  obtain ⟨known, refines⟩ := records.refines
  cases carried : arpBody arrival.frame with
  | none =>
      have silent (ip : BitVec 32) : arrival.shaOf ip = none := by
        rw [Arrival.shaOf, carried]
        rfl
      refine ⟨records.refines, records.bound, ?_, ?_⟩
      · intro ip
        rw [admitted_of_silent (silent ip)]
        exact records.admitted ip
      · intro ip present
        rw [latestSha_of_silent (silent ip)]
        exact records.latest ip present
  | some body =>
      have others {ip : BitVec 32} (other : body.sip ≠ ip) : arrival.shaOf ip = none := by
        rw [Arrival.shaOf, carried, Option.bind_some, if_neg other]
      have sha : arrival.shaOf body.sip = some body.sha :=
        Arrival.shaOf_eq_some.mpr ⟨body, carried, rfl, rfl⟩
      have merges := @ArpBody.merge_iff table known localIp refines body
      rw [records.bound, records.admitted] at merges
      have addresses : arrival.Addresses localIp body.sip ↔ body.tip = localIp := by
        rw [Arrival.Addresses, carried]
        simp
      have notFull : (∃ now, afterArrivals localMac localIp (.make capacity) arrivals = some now ∧
          now.size < capacity) ↔ table.size < capacity := by
        rw [reached]
        simp
      refine ⟨body.merge_refines refines, ?_, ?_, ?_⟩
      · exact (body.merge_capacity localIp table).trans records.bound
      · intro ip
        dsimp only [Option.elim_some]
        by_cases sender : body.sip = ip
        · subst sender
          rw [admittedSince_concat, body.isSome_lookup_merge refines, merges, addresses, notFull]
          constructor
          · rintro (⟨named, admitted⟩ | ⟨forUs, named, room⟩)
            · exact ⟨named, .inl admitted⟩
            · exact ⟨named, .inr ⟨forUs, room⟩⟩
          · rintro ⟨named, admitted | ⟨forUs, room⟩⟩
            · exact .inl ⟨named, admitted⟩
            · exact .inr ⟨forUs, named, room⟩
        · rw [admitted_of_silent (others sender), body.lookup_merge_of_ne refines sender]
          exact records.admitted ip
      · intro ip present
        dsimp only [Option.elim_some] at present ⊢
        by_cases sender : body.sip = ip
        · subst sender
          rw [body.isSome_lookup_merge refines] at present
          rw [body.lookup_merge_self refines present, latestSha_append, latestSha, latestSha, sha]
          rfl
        · rw [latestSha_of_silent (others sender)]
          rw [body.lookup_merge_of_ne refines sender] at present ⊢
          exact records.latest ip present

end Records

/-- Every run of frames ends in a table, and the table records it. -/
theorem afterArrivals_records (localMac : Mac) (localIp : BitVec 32) (capacity : Nat)
    (arrivals : List Arrival) :
    ∃ table, afterArrivals localMac localIp (.make capacity) arrivals = some table ∧
      Records localMac localIp capacity arrivals table := by
  induction arrivals using List.reverseRecOn with
  | nil => exact ⟨_, rfl, .make⟩
  | append_singleton arrivals arrival ih =>
      obtain ⟨table, reached, records⟩ := ih
      obtain ⟨outcome, returned, handled⟩ := handleArp_handled localMac localIp table arrival.room
        arrival.pool arrival.frame
      refine ⟨_, ?_, records.concat reached arrival⟩
      rw [afterArrivals_concat, reached, Option.bind_some, Arrival.handle, returned,
        Option.map_some, handled.neighbors_eq]

/-- RFC 826 over whole runs.  After any frames, the table maps an address to a hardware
address exactly if the address is not 0.0.0.0, its owner addressed us in a well-formed
frame while the table was not full, and the hardware address is that of its latest
well-formed frame from there on.  A frame that is not well formed changes nothing, a
well-formed one nothing but its sender's entry, and a reply is built exactly for a
request that asks for us when the pool yields a buffer for it. -/
theorem arp_merge_over_runs (localMac : Mac) (localIp : BitVec 32) (capacity : Nat)
    (arrivals : List Arrival) :
    ∃ table, afterArrivals localMac localIp (.make capacity) arrivals = some table ∧
      (∀ ip mac, table.lookup ip = some mac ↔
        ip ≠ 0 ∧ ∃ since, AdmittedSince localMac localIp capacity ip arrivals since ∧
          latestSha ip since = some mac) ∧
      ∀ arrival : Arrival, ∃ outcome, arrival.handle localMac localIp table = some outcome ∧
        (arpBody arrival.frame = none → outcome.neighbors = table) ∧
        (∀ body, arpBody arrival.frame = some body → ∀ ip, body.sip ≠ ip →
          outcome.neighbors.lookup ip = table.lookup ip) ∧
        (outcome.reply.isSome ↔ ∃ body, arpBody arrival.frame = some body ∧
          body.Asks localIp ∧ Yields arrival.room arrival.pool) := by
  obtain ⟨table, reached, records⟩ := afterArrivals_records localMac localIp capacity arrivals
  obtain ⟨known, refines⟩ := records.refines
  refine ⟨table, reached, ?_, ?_⟩
  · intro ip mac
    constructor
    · intro found
      have present : (table.lookup ip).isSome := by rw [found]; rfl
      obtain ⟨named, since, admitted⟩ := (records.admitted ip).mp present
      refine ⟨named, since, admitted, ?_⟩
      rw [← admitted.latestSha.2, ← records.latest ip present, found]
    · rintro ⟨named, since, admitted, latest⟩
      have present := (records.admitted ip).mpr ⟨named, since, admitted⟩
      rw [records.latest ip present, admitted.latestSha.2, latest]
  · intro arrival
    obtain ⟨outcome, returned, handled⟩ := handleArp_handled localMac localIp table arrival.room
      arrival.pool arrival.frame
    refine ⟨outcome, returned, ?_, ?_, handled.reply_isSome⟩
    · intro carried
      rw [handled.neighbors_eq, carried]
      rfl
    · intro body carried ip other
      rw [handled.neighbors_eq, carried]
      exact body.lookup_merge_of_ne refines other

end Runs

end DpdkWrapper.Arp
