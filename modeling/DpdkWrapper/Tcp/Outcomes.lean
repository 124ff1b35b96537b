import DpdkWrapper.Tcp.SessionErasure
import DpdkWrapper.Tcp.OutboundStream

/-!
# What a call does to its connection

A call on the id of the connection in a slot returns, sends and stores what `ClientConn.send`
and `ClientConn.close` compute from that connection alone; a call on any other id does nothing.

`Issues` says what a call does: the outbound fields that it leaves in its slot and the segments
that it hands over.  `send` and `close` are loops, so the functions of the client restate the
loops, too; the pool and the queue are arguments of both.
-/

namespace DpdkWrapper.Tcp

open Threads Wire

/-- The data queue takes segments, a slot gets outbound fields, and nothing else
happens. -/
structure Issues (slot : Nat) (out : OutboundFields) (segments : List TxSegment)
    (mem mem' : Memory) : Prop where
  rx : mem'.rx = mem.rx
  slots : mem'.tx.slots = Function.update mem.tx.slots slot out
  log : mem'.tx.log.filterMap TxEntry.segment =
    segments.reverse ++ mem.tx.log.filterMap TxEntry.segment

namespace Issues

variable {slot : Nat} {out out' : OutboundFields} {segments more : List TxSegment}
  {mem mem' mem'' : Memory}

/-- What no session sees hands over nothing. -/
theorem of_unsent {tx : Sender} (slot : Nat) (unsent : Unsent mem.tx tx) :
    Issues slot (mem.tx.slots slot) [] mem ⟨mem.rx, tx⟩ :=
  ⟨rfl, unsent.slots.trans (Function.update_eq_self slot _).symm, unsent.segments⟩

theorem refl (slot : Nat) (mem : Memory) : Issues slot (mem.tx.slots slot) [] mem mem :=
  of_unsent slot (.refl _)

theorem trans (first : Issues slot out segments mem mem')
    (second : Issues slot out' more mem' mem'') :
    Issues slot out' (segments ++ more) mem mem'' where
  rx := second.rx.trans first.rx
  slots := by rw [second.slots, first.slots, Function.update_idem]
  log := by rw [second.log, first.log, List.reverse_append, List.append_assoc]

theorem here (issues : Issues slot out segments mem mem') : mem'.tx.slots slot = out := by
  rw [issues.slots, Function.update_self]

theorem others (issues : Issues slot out segments mem mem') {i : Nat} (other : i ≠ slot) :
    mem'.tx.slots i = mem.tx.slots i := by
  rw [issues.slots, Function.update_of_ne other]

theorem andNote (issues : Issues slot out segments mem mem') {entry : TxEntry}
    (silent : entry.segment = none) :
    Issues slot out segments mem ⟨mem'.rx, mem'.tx.note entry⟩ where
  rx := issues.rx
  slots := issues.slots
  log := (List.filterMap_cons_none silent).trans issues.log

theorem after (issues : Issues slot out' segments mem' mem'')
    (quiet : Issues slot out [] mem mem') : Issues slot out' segments mem mem'' :=
  quiet.trans issues

end Issues

/-! ## The loop of `send` -/

section

variable {k : TcpStack}

theorem planSegment_slot (plan : SendPlan) (slot : Nat) (pool : Bool) (off len : Nat) :
    planSegment k { plan with slot := slot } pool off len = planSegment k plan pool off len :=
  rfl

theorem buildBurst_slot (plan : SendPlan) (slot : Nat) (pool : Nat → Bool) (room n off : Nat) :
    buildBurst k { plan with slot := slot } pool room n off =
      buildBurst k plan pool room n off := by
  induction room generalizing n off with
  | zero => rfl
  | succ room ih =>
      simp only [buildBurst, planSegment_slot]
      split
      · split
        · rfl
        · rw [ih]
      · rfl

theorem sendRounds_slot (plan : SendPlan) (slot : Nat) (env : SendEnv) (fuel burst done : Nat) :
    sendRounds k { plan with slot := slot } env fuel burst done =
      sendRounds k plan env fuel burst done := by
  induction fuel generalizing burst done with
  | zero => rfl
  | succ fuel ih => simp only [sendRounds, buildBurst_slot, ih]

theorem buildBurst_addr (plan : SendPlan) (pool : Nat → Bool) (room n off : Nat) :
    ∀ built ∈ buildBurst k plan pool room n off, built.1.addr = plan.addr := by
  induction room generalizing n off with
  | zero => rintro _ ⟨⟩
  | succ room ih =>
      unfold buildBurst
      split
      · dsimp only
        split
        · rintro _ ⟨⟩
        · rename_i segment planned
          intro built member
          rcases List.mem_cons.mp member with rfl | later
          · exact congrArg TxSegment.addr (buildSegment_eq_some planned)
          · exact ih _ _ built later
      · rintro _ ⟨⟩

theorem mem_burst_addr {plan : SendPlan} {pool : Nat → Bool} {room n off sent : Nat}
    {segment : TxSegment}
    (member : segment ∈ ((buildBurst k plan pool room n off).take sent).map (·.1)) :
    segment.addr = plan.addr := by
  obtain ⟨built, inBurst, rfl⟩ := List.mem_map.mp member
  exact buildBurst_addr plan pool room n off built (List.mem_of_mem_take inBurst)

/-- Every segment of `send` goes to the peer of its plan. -/
theorem sendRounds_addr (plan : SendPlan) (env : SendEnv) (fuel burst done : Nat) :
    ∀ segment ∈ (sendRounds k plan env fuel burst done).2, segment.addr = plan.addr := by
  induction fuel generalizing burst done with
  | zero => rintro _ ⟨⟩
  | succ fuel ih =>
      unfold sendRounds
      split
      · dsimp only
        split
        · rintro _ ⟨⟩
        · split
          · exact fun segment => mem_burst_addr
          · split
            · exact fun segment => mem_burst_addr
            · intro segment member
              rcases List.mem_append.mp member with now | later
              · exact mem_burst_addr now
              · exact ih _ _ segment later
      · rintro _ ⟨⟩

/-- `snd_nxt` and a burst. -/
theorem Issues.burst (plan : SendPlan) (mem : Memory) (off : Nat) (segments : List TxSegment) :
    Issues plan.slot
      { mem.tx.slots plan.slot with sndNxt := plan.base + BitVec.ofNat 32 off } segments
      mem (plan.transmit segments (plan.publish off mem)) where
  rx := rfl
  slots := rfl
  log := by
    simp only [SendPlan.transmit, SendPlan.publish, List.filterMap_append]
    congr 1
    rw [← List.map_reverse, List.filterMap_map]
    exact List.filterMap_some

/-- The rounds are those of the loop. -/
theorem sendLoop_issues (plan : SendPlan) (env : SendEnv) (fuel burst done : Nat)
    (mem : Memory)
    (start : (mem.tx.slots plan.slot).sndNxt = plan.base + BitVec.ofNat 32 done) :
    let rounds := sendRounds k plan env fuel burst done
    let result := (sendLoop k plan env fuel burst done).run mem
    result.1 = rounds.1 ∧
      Issues plan.slot
        { mem.tx.slots plan.slot with sndNxt := plan.base + BitVec.ofNat 32 rounds.1 }
        rounds.2 mem result.2 := by
  induction fuel generalizing burst done mem with
  | zero =>
      dsimp only [sendRounds]
      rw [← start]
      exact ⟨rfl, (Issues.refl plan.slot mem).andNote rfl⟩
  | succ fuel ih =>
      have stays : (mem.tx.slots plan.slot) =
          { mem.tx.slots plan.slot with sndNxt := plan.base + BitVec.ofNat 32 done } := by
        rw [← start]
      unfold sendRounds sendLoop
      by_cases more : done < plan.limit
      case neg =>
        rw [if_neg more, if_neg more]
        refine ⟨rfl, ?_⟩
        rw [← stays]
        exact .refl plan.slot mem
      rw [if_pos more, if_pos more]
      dsimp only
      generalize buildBurst k plan (env.pool burst) maxBurst 0 done = built
      by_cases empty : built.isEmpty = true
      · rw [if_pos empty, if_pos empty]
        refine ⟨rfl, ?_⟩
        rw [← stays]
        exact .refl plan.slot mem
      rw [if_neg empty, if_neg empty, run_storeSndNxt_bind, transmit, run_outbound_bind]
      generalize min (env.take burst) built.length = sent
      have round := Issues.burst plan mem (endOffset done built) ((built.take sent).map (·.1))
      by_cases short : sent < built.length
      · rw [if_pos short, if_pos short, run_storeSndNxt_bind]
        refine ⟨rfl, ?_⟩
        have back := Issues.burst plan
          (plan.transmit ((built.take sent).map (·.1)) (plan.publish (endOffset done built) mem))
          (endOffset done (built.take sent)) []
        have both := round.trans back
        rw [List.append_nil, round.here] at both
        exact both
      rw [if_neg short, if_neg short]
      split
      · exact ⟨rfl, round⟩
      · obtain ⟨value, later⟩ := ih (burst + 1) (endOffset done built)
          (plan.transmit ((built.take sent).map (·.1)) (plan.publish (endOffset done built) mem))
          (congrArg OutboundFields.sndNxt round.here)
        rw [round.here] at later
        exact ⟨value, round.trans later⟩

/-! ## The loop of `close` -/

theorem finTaken_addr (addr : SegmentAddr) (seq rcvNxt : BitVec 32) (env : CloseEnv)
    (retries attempt : Nat) (fin : Option TxSegment)
    (built : ∀ segment ∈ fin, segment.addr = addr) :
    ∀ segment ∈ finTaken k addr seq rcvNxt env retries attempt fin, segment.addr = addr := by
  induction retries generalizing attempt fin with
  | zero => rintro _ ⟨⟩
  | succ retries ih =>
      have made : ∀ segment ∈ fin.or (buildSegment k.mbufRoom (env.pool attempt) addr seq rcvNxt
          (finFlag ||| ackFlag) k.receiveWindow [] 0), segment.addr = addr := by
        intro segment member
        cases fin with
        | some earlier => exact built segment member
        | none => exact congrArg TxSegment.addr (buildSegment_eq_some member)
      unfold finTaken
      dsimp only
      split
      · exact made
      · exact ih _ _ made

/-- The queue takes the FIN that `finTaken` computes. -/
theorem run_finLoop_eq (conn : ConnId) (addr : SegmentAddr) (seq : BitVec 32) (env : CloseEnv)
    (retries attempt : Nat) (fin : Option TxSegment) (mem : Memory) :
    (finLoop k conn addr seq env retries attempt fin).run mem = ((), ⟨mem.rx,
      { mem.tx with
        log := (finTaken k addr seq (mem.rx.slots conn.slot).rcvNxt env retries attempt
          fin).toList.map (.sent conn.slot) ++ mem.tx.log }⟩) := by
  induction retries generalizing attempt fin with
  | zero => rfl
  | succ retries ih =>
      have made : (buildFin k conn addr seq (env.pool attempt) fin).run mem =
          (fin.or (buildSegment k.mbufRoom (env.pool attempt) addr seq
            (mem.rx.slots conn.slot).rcvNxt (finFlag ||| ackFlag) k.receiveWindow [] 0),
            mem) := by
        cases fin <;> rfl
      unfold finLoop finTaken
      rw [Program.run_bind', made]
      dsimp only
      generalize fin.or _ = built
      cases built with
      | none => exact ih _ _
      | some segment =>
          rw [Option.isSome_some, Bool.true_and]
          cases taken : env.takes attempt with
          | false => exact ih _ _
          | true => rfl

end

/-! ## Calls -/

/-- The id is that of the connection in its slot. -/
structure ConnId.Names (k : TcpStack) (mem : Memory) (conn : ConnId) : Prop where
  inside : conn.slot < k.maxConnections
  current : (mem.rx.slots conn.slot).generation = conn.generation

section

variable {k : TcpStack} {conn : ConnId} {mem : Memory}

theorem found_of_names (names : conn.Names k mem) :
    found k conn mem = !hasReleased (mem.link conn.slot).out.outFlags := by
  rw [found, decide_eq_true names.inside, beq_iff_eq.mpr names.current]
  rfl

theorem canSend_of_names (names : conn.Names k mem) :
    canSend k conn mem = (mem.link conn.slot).sendable := by
  rw [canSend, found_of_names names]
  rfl

theorem not_found_of_stale (stale : ¬conn.Names k mem) : found k conn mem = false := by
  by_contra finds
  rw [Bool.not_eq_false] at finds
  simp only [found, Bool.and_eq_true, decide_eq_true_eq, beq_iff_eq] at finds
  exact stale ⟨finds.1.1, finds.1.2⟩

theorem canSend_of_stale (stale : ¬conn.Names k mem) : canSend k conn mem = false := by
  rw [canSend, not_found_of_stale stale]
  rfl

/-- `send` takes nothing if the connection is not sendable. -/
theorem send_refused (unready : canSend k conn mem = false) (bytes : List Byte)
    (env : SendEnv) :
    let result := (send k conn bytes env).run mem
    result.1 = 0 ∧ Issues conn.slot (mem.tx.slots conn.slot) [] mem result.2 := by
  obtain ⟨tx, unsent, runs⟩ := run_send k conn mem bytes env
  rw [unready, Bool.not_false, Bool.or_true, if_pos rfl] at runs
  rw [runs]
  exact ⟨rfl, (Issues.of_unsent conn.slot unsent).andNote rfl⟩

/-- What `send` does behind its checks is what the connection alone computes. -/
theorem sendOnConnection_issues (k : TcpStack) (conn : ConnId) (bytes : List Byte) (env : SendEnv)
    (mem : Memory) :
    let link := mem.link conn.slot
    let rounds := sendRounds k (link.plan k bytes) env ((link.plan k bytes).limit + 1) 0 0
    let result := (sendOnConnection k conn bytes env).run mem
    result.1 = rounds.1 ∧
      Issues conn.slot
        ⟨link.out.sndNxt + BitVec.ofNat 32 rounds.1, link.out.outFlags⟩
        rounds.2 mem result.2 := by
  intro link
  rw [sendOnConnection, run_loadSndNxt_bind, run_viewRx_bind]
  have limit : (link.plan k bytes).limit = min bytes.length
      (windowSpace (mem.rx.slots conn.slot).sendWindow (mem.tx.slots conn.slot).sndNxt) := rfl
  rw [← limit]
  by_cases full : (link.plan k bytes).limit = 0
  · have none : sendRounds k (link.plan k bytes) env ((link.plan k bytes).limit + 1) 0 0 =
        (0, []) := by
      rw [sendRounds, full]
      rfl
    dsimp only
    rw [none, full]
    refine ⟨rfl, ?_⟩
    dsimp only
    rw [show BitVec.ofNat 32 0 = 0#32 from rfl, BitVec.add_zero]
    exact .refl conn.slot mem
  · have some : ((link.plan k bytes).limit == 0) = false := by simpa using full
    dsimp only
    rw [some, if_neg Bool.false_ne_true, run_viewRx_bind, run_viewRx_bind]
    have start : (mem.tx.slots conn.slot).sndNxt =
        link.out.sndNxt + BitVec.ofNat 32 0 := (BitVec.add_zero _).symm
    have loop := sendLoop_issues (k := k) { link.plan k bytes with slot := conn.slot } env
      ((link.plan k bytes).limit + 1) 0 0 mem start
    rw [sendRounds_slot] at loop
    exact loop

/-- A `send` does what its connection says. -/
theorem send_issues (names : conn.Names k mem) (bytes : List Byte) (env : SendEnv) :
    let link := mem.link conn.slot
    let outcome := link.send k bytes env
    let result := (send k conn bytes env).run mem
    result.1 = outcome.1 ∧
      Issues conn.slot ⟨link.out.sndNxt + BitVec.ofNat 32 outcome.1, link.out.outFlags⟩
        outcome.2 mem result.2 := by
  intro link
  obtain ⟨tx, unsent, runs⟩ := run_send k conn mem bytes env
  have quiet := Issues.of_unsent conn.slot unsent
  have same : Memory.link ⟨mem.rx, tx⟩ conn.slot = link := by
    simp only [link, Memory.link, unsent.slots]
  obtain ⟨value, sends⟩ := sendOnConnection_issues k conn bytes env ⟨mem.rx, tx⟩
  rw [same] at value sends
  rw [canSend_of_names names] at runs
  rw [runs, ClientConn.send]
  split
  · dsimp only
    rw [show BitVec.ofNat 32 0 = 0#32 from rfl, BitVec.add_zero]
    exact ⟨rfl, quiet.andNote rfl⟩
  · exact ⟨value, (sends.after quiet).andNote rfl⟩

theorem filterMap_segment_fin (slot : Nat) (fin : Option TxSegment) (log : List TxEntry) :
    (fin.toList.map (TxEntry.sent slot) ++ log).filterMap TxEntry.segment =
      fin.toList.reverse ++ log.filterMap TxEntry.segment := by
  cases fin <;> rfl

/-- The FIN part of `close`. -/
theorem closeFin_issues (k : TcpStack) (conn : ConnId) (env : CloseEnv) (mem : Memory) :
    let link := mem.link conn.slot
    let result := (closeFin k conn link.out.outFlags env).run mem
    if hasFinSent link.out.outFlags || link.conn.terminated then
      result = (link.out.outFlags, mem)
    else
      result.1 = link.out.outFlags ||| outFinSent ∧
        Issues conn.slot ⟨link.out.sndNxt + 1, link.out.outFlags ||| outFinSent⟩
          (finTaken k (replyAddr k link.conn) link.out.sndNxt link.conn.rcvNxt env closeRetries 0
            none).toList mem result.2 := by
  intro link result
  have runs : result = (closeFin k conn link.out.outFlags env).run mem := rfl
  rw [closeFin] at runs
  split
  · rename_i ended
    rcases Bool.or_eq_true_iff.mp ended with finSent | terminated
    · rw [if_pos finSent] at runs
      exact runs
    · split at runs
      · exact runs
      · rw [run_viewRx_bind] at runs
        exact runs.trans (congrArg (Program.run · mem) (if_pos terminated))
  · rename_i ready
    rw [Bool.or_eq_true, not_or] at ready
    have going : ¬(mem.rx.slots conn.slot).terminated = true := ready.2
    rw [if_neg ready.1, run_viewRx_bind, if_neg going, run_loadSndNxt_bind,
      run_storeSndNxt_bind, run_storeOutFlags_bind, Program.run_bind', run_finLoop_eq] at runs
    rw [runs]
    refine ⟨rfl, rfl, ?_, ?_⟩
    · simp [Sender.updateSlot, link, Memory.link]
    · exact filterMap_segment_fin conn.slot _ mem.tx.log

/-- The last stores of `close`. -/
theorem Issues.release {out : OutboundFields} {segments : List TxSegment} {mem' : Memory}
    (issues : Issues conn.slot out segments mem mem') (flags : BitVec 8) :
    Issues conn.slot ⟨out.sndNxt, flags⟩ segments mem
      ⟨mem'.rx, ((mem'.tx.updateSlot conn.slot fun fields =>
        { fields with outFlags := flags }).note (.released conn)).note (.closeReturned conn)⟩ where
  rx := issues.rx
  slots := by
    change Function.update mem'.tx.slots conn.slot _ = _
    rw [issues.here, issues.slots, Function.update_idem]
  log := issues.log

/-- A `close` does what its connection says. -/
theorem close_issues (names : conn.Names k mem) (env : CloseEnv) :
    let outcome := (mem.link conn.slot).close k env
    Issues conn.slot outcome.1 outcome.2 mem ((close k conn env).run mem).2 := by
  obtain ⟨tx, unsent, runs⟩ := run_close k conn mem env
  have quiet := Issues.of_unsent conn.slot unsent
  have same : Memory.link ⟨mem.rx, tx⟩ conn.slot = mem.link conn.slot := by
    simp only [Memory.link, unsent.slots]
  have fin := closeFin_issues k conn env ⟨mem.rx, tx⟩
  dsimp only at fin
  rw [same] at fin
  rw [runs, found_of_names names, ClientConn.close]
  cases hasReleased (mem.link conn.slot).out.outFlags with
  | true => exact quiet.andNote rfl
  | false =>
      have flags : (mem.tx.slots conn.slot).outFlags = (mem.link conn.slot).out.outFlags := rfl
      rw [Bool.not_false, if_pos rfl, if_neg Bool.false_ne_true, flags]
      generalize (closeFin k conn (mem.link conn.slot).out.outFlags env).run _ = result at fin ⊢
      obtain ⟨out, later⟩ := result
      split at fin
      · rename_i ended
        obtain ⟨rfl, rfl⟩ := Prod.mk.inj fin
        rw [if_pos ended]
        exact quiet.release ((mem.link conn.slot).out.outFlags ||| outReleased)
      · rename_i ready
        rw [if_neg ready]
        obtain ⟨rfl, issues⟩ := fin
        exact (issues.after quiet).release
          ((mem.link conn.slot).out.outFlags ||| outFinSent ||| outReleased)

theorem close_stale (missed : found k conn mem = false) (env : CloseEnv) :
    Issues conn.slot (mem.tx.slots conn.slot) [] mem ((close k conn env).run mem).2 := by
  obtain ⟨tx, unsent, runs⟩ := run_close k conn mem env
  rw [runs, missed]
  exact (Issues.of_unsent conn.slot unsent).andNote rfl

end

end DpdkWrapper.Tcp
