import DpdkWrapper.Wire.Options
import DpdkWrapper.Tcp.States

/-!
# Segmentation

`send` cuts its argument into segments of at most `send_mss` bytes, in bursts of at most
32.  Each burst moves on, since `send_mss` is never zero.  Where headers and payload fit
the buffers of the pool, the bursts go on to the end of what the window has room for.
Where the first segment, which is as long as any, does not fit, `send` takes nothing.
-/

namespace DpdkWrapper.Tcp

open Threads Wire

/-! ## One burst -/

/-- Headers and payload of the largest segment of a plan fit the pool's buffers. -/
def SendPlan.Fits (k : TcpStack) (plan : SendPlan) : Prop :=
  54 + min plan.mss plan.limit ≤ k.mbufRoom

section Burst

variable {k : TcpStack} {plan : SendPlan}

/-- `build_segment` without options succeeds if the buffer holds headers and payload. -/
theorem buildSegment_isSome {room : Nat} {addr : SegmentAddr} {seq ack : BitVec 32} {flags : Byte}
    {window : BitVec 16} {payload : List Byte} (fits : 54 + payload.length ≤ room)
    (small : payload.length ≤ 65535) :
    (buildSegment room true addr seq ack flags window payload 0).isSome = true := by
  have first : 0 + 14 ≤ room := by omega
  have second : 14 + 20 ≤ room := by omega
  have third : 34 + 20 ≤ room := by omega
  cases payload with
  | nil => simp [buildSegment, mbufAppend, appendMssOption, appendPayload, first, second, third]
  | cons byte rest =>
      rw [List.length_cons] at fits small
      have whole : 54 + (rest.length + 1) ≤ room := fits
      have short : ¬65535 < rest.length + 1 := Nat.not_lt.mpr small
      simp [buildSegment, mbufAppend, appendMssOption, appendPayload, first, second, third, whole,
        short]

theorem planSegment_isSome (fits : plan.Fits k) (small : plan.mss ≤ 65535) {off : Nat}
    (inside : off < plan.limit) :
    (planSegment k plan true off (min plan.mss (plan.limit - off))).isSome = true := by
  have length : ((plan.bytes.drop off).take (min plan.mss (plan.limit - off))).length ≤
      min plan.mss (plan.limit - off) := List.length_take_le _ _
  unfold SendPlan.Fits at fits
  exact buildSegment_isSome (by omega) (by omega)

theorem mbufAppend_eq_some {room used count total : Nat}
    (appended : mbufAppend room used count = some total) :
    total = used + count ∧ used + count ≤ room := by
  unfold mbufAppend at appended
  split at appended
  · rename_i inside
    exact ⟨(Option.some.inj appended).symm, inside⟩
  · cases appended

/-- `build_segment` fails if the buffer does not hold headers and payload. -/
theorem buildSegment_eq_none {room : Nat} {pool : Bool} {addr : SegmentAddr} {seq ack : BitVec 32}
    {flags : Byte} {window : BitVec 16} {payload : List Byte} (unfit : room < 54 + payload.length) :
    buildSegment room pool addr seq ack flags window payload 0 = none := by
  rw [Option.eq_none_iff_forall_ne_some]
  intro segment built
  unfold buildSegment at built
  split at built
  · simp only [Option.bind_eq_bind, Option.bind_eq_some_iff] at built
    obtain ⟨_, ethernet, _, ip, _, tcp, _, option, _, rest, _⟩ := built
    obtain ⟨rfl, _⟩ := mbufAppend_eq_some ethernet
    obtain ⟨rfl, _⟩ := mbufAppend_eq_some ip
    obtain ⟨rfl, headers⟩ := mbufAppend_eq_some tcp
    rw [appendMssOption, if_neg (not_not.mpr rfl), Option.some.injEq] at option
    subst option
    unfold appendPayload at rest
    split at rest
    · rename_i empty
      rw [List.isEmpty_iff.mp empty, List.length_nil] at unfit
      omega
    · split at rest
      · cases rest
      · obtain ⟨_, inside⟩ := mbufAppend_eq_some rest
        omega
  · cases built

theorem planSegment_eq_none (unfit : ¬plan.Fits k) (whole : plan.limit ≤ plan.bytes.length)
    (pool : Bool) : planSegment k plan pool 0 (min plan.mss plan.limit) = none := by
  apply buildSegment_eq_none
  rw [List.drop_zero, List.length_take]
  unfold SendPlan.Fits at unfit
  omega

/-- A burst whose segments can all be built reaches the limit or is full. -/
theorem endOffset_buildBurst (fits : plan.Fits k) (small : plan.mss ≤ 65535)
    (room n off : Nat) (inside : off ≤ plan.limit) :
    let built := buildBurst k plan (fun _ => true) room n off
    endOffset off built = min (off + room * plan.mss) plan.limit ∧
      (built.length < room → endOffset off built = plan.limit) := by
  induction room generalizing n off with
  | zero =>
      constructor
      · simp [buildBurst, endOffset, inside]
      · exact fun fewer => absurd fewer (Nat.not_lt_zero _)
  | succ room ih =>
      rw [buildBurst]
      split
      · rename_i more
        obtain ⟨segment, built⟩ := Option.isSome_iff_exists.mp (planSegment_isSome fits small more)
        dsimp only
        rw [built]
        obtain ⟨reached, finished⟩ := ih (n + 1) (off + min plan.mss (plan.limit - off)) (by omega)
        dsimp only
        rw [endOffset_cons, List.length_cons]
        constructor
        · rw [reached, Nat.succ_mul]
          omega
        · exact fun fewer => finished (Nat.lt_of_succ_lt_succ fewer)
      · rename_i done
        have ended : off = plan.limit := Nat.le_antisymm inside (Nat.not_lt.mp done)
        refine ⟨?_, fun _ => ended⟩
        change off = _
        omega

theorem length_buildBurst_le (k : TcpStack) (plan : SendPlan) (pool : Nat → Bool)
    (room n off : Nat) : (buildBurst k plan pool room n off).length ≤ room := by
  induction room generalizing n off with
  | zero => exact Nat.le_refl 0
  | succ room ih =>
      rw [buildBurst]
      split
      · dsimp only
        split
        · exact Nat.zero_le _
        · exact Nat.succ_le_succ (ih _ _)
      · exact Nat.zero_le _

end Burst

/-! ## All bursts -/

/-- The pool never runs out and the data queue takes every burst whole. -/
structure SendEnv.Unfailing (env : SendEnv) : Prop where
  pool : ∀ burst n, env.pool burst n = true
  queue : ∀ burst, maxBurst ≤ env.take burst

section Loop

variable {k : TcpStack} {plan : SendPlan} {env : SendEnv}

/-- Every burst starts where the last one has ended, so the loop ends at the limit. -/
theorem run_sendLoop (fits : plan.Fits k) (mss : 0 < plan.mss) (small : plan.mss ≤ 65535)
    (unfailing : env.Unfailing) (fuel burst done : Nat) (mem : Memory)
    (enough : plan.limit < fuel + done) (within : done ≤ plan.limit) :
    ((sendLoop k plan env fuel burst done).run mem).1 = plan.limit := by
  induction fuel generalizing burst done mem with
  | zero => omega
  | succ fuel ih =>
      rw [sendLoop]
      split
      case isFalse reached => exact Nat.le_antisymm within (Nat.not_lt.mp reached)
      case isTrue more =>
      have pool : env.pool burst = fun _ => true := funext (unfailing.pool burst)
      rw [pool]
      obtain ⟨reached, finished⟩ := endOffset_buildBurst fits small maxBurst 0 done within
      have few := length_buildBurst_le k plan (fun _ => true) maxBurst 0 done
      generalize buildBurst k plan (fun _ => true) maxBurst 0 done = built at reached finished few
      have whole : min (env.take burst) built.length = built.length :=
        Nat.min_eq_right (Nat.le_trans few (unfailing.queue burst))
      have grows : done < endOffset done built := by
        have positive : 0 < maxBurst * plan.mss := Nat.mul_pos (by decide) mss
        rw [reached]
        omega
      have filled : ¬built.isEmpty = true := by
        intro empty
        rw [List.isEmpty_iff.mp empty] at grows
        exact Nat.lt_irrefl done grows
      dsimp only
      rw [if_neg filled, run_storeSndNxt_bind, transmit, run_outbound_bind, whole,
        if_neg (Nat.lt_irrefl _)]
      split
      · rename_i early
        simp only [Bool.and_eq_true, decide_eq_true_eq] at early
        exact absurd (finished early.1) (Nat.ne_of_lt early.2)
      · exact ih (burst + 1) (endOffset done built) _ (by omega) (by omega)

/-- If the first segment cannot be built, the loop ends at once. -/
theorem run_sendLoop_of_unfit (unfit : ¬plan.Fits k) (whole : plan.limit ≤ plan.bytes.length)
    (env : SendEnv) (fuel : Nat) (mem : Memory) :
    ((sendLoop k plan env (fuel + 1) 0 0).run mem).1 = 0 := by
  rw [sendLoop]
  split
  · rename_i more
    have nothing : buildBurst k plan (env.pool 0) maxBurst 0 0 = [] := by
      rw [maxBurst, buildBurst, if_pos more]
      dsimp only
      rw [Nat.sub_zero, planSegment_eq_none unfit whole]
    dsimp only
    rw [nothing]
    rfl
  · rfl

end Loop

/-! ## `send` and `send_space` -/

section Calls

variable {k : TcpStack} {conn : ConnId} {mem : Memory}

theorem sendSpace_returns (ready : canSend k conn mem = true) :
    ((sendSpace k conn).run mem).1 = spaceOf mem conn.slot := by
  obtain ⟨tx, runs, _⟩ := run_sendSpace k conn mem
  rw [runs, ready]
  rfl

/-- Without interference and with nothing failing `send` takes all or nothing. -/
theorem sendOnConnection_returns {bytes : List Byte} {env : SendEnv}
    (mss : (mem.rx.slots conn.slot).sendMss ≠ 0) (unfailing : env.Unfailing) :
    ((sendOnConnection k conn bytes env).run mem).1 =
      if 54 + min (mem.rx.slots conn.slot).sendMss.toNat
          (min bytes.length (spaceOf mem conn.slot)) ≤ k.mbufRoom then
        min bytes.length (spaceOf mem conn.slot)
      else
        0 := by
  have positive : 0 < (mem.rx.slots conn.slot).sendMss.toNat := by
    rw [Nat.pos_iff_ne_zero]
    exact fun zero => mss (BitVec.eq_of_toNat_eq zero)
  have small := Nat.le_of_lt_succ (mem.rx.slots conn.slot).sendMss.isLt
  rw [sendOnConnection, run_loadSndNxt_bind, run_viewRx_bind]
  change (Program.run (if (min bytes.length (spaceOf mem conn.slot) == 0) = true then _ else _)
    _).1 = _
  split
  · rename_i none
    rw [beq_iff_eq.mp none, ite_self]
    rfl
  · rw [run_viewRx_bind, run_viewRx_bind]
    generalize planned : SendPlan.mk conn.slot _ _ _ _ _ _ = plan
    split
    · rename_i fits
      have planFits : plan.Fits k := by
        rw [← planned]
        exact fits
      have loop := run_sendLoop planFits (by rw [← planned]; exact positive)
        (by rw [← planned]; exact small) unfailing (plan.limit + 1) 0 0 mem
        (Nat.lt_succ_self _) (Nat.zero_le _)
      rw [← planned] at loop ⊢
      exact loop
    · rename_i unfit
      have planUnfit : ¬plan.Fits k := by
        rw [← planned]
        exact unfit
      have whole : plan.limit ≤ plan.bytes.length := by
        rw [← planned]
        exact Nat.min_le_left _ _
      have loop := run_sendLoop_of_unfit planUnfit whole env plan.limit mem
      rw [← planned] at loop ⊢
      exact loop

theorem send_returns {bytes : List Byte} {env : SendEnv} (ready : canSend k conn mem = true)
    (mss : (mem.rx.slots conn.slot).sendMss ≠ 0) (unfailing : env.Unfailing) :
    ((send k conn bytes env).run mem).1 =
      if 54 + min (mem.rx.slots conn.slot).sendMss.toNat
          (min bytes.length (spaceOf mem conn.slot)) ≤ k.mbufRoom then
        min bytes.length (spaceOf mem conn.slot)
      else
        0 := by
  obtain ⟨tx, unsent, runs⟩ := run_send k conn mem bytes env
  rw [runs, ready, Bool.not_true, Bool.or_false]
  split
  · rename_i empty
    rw [List.isEmpty_iff.mp empty, List.length_nil, Nat.zero_min, ite_self]
  · have space : spaceOf ⟨mem.rx, tx⟩ conn.slot = spaceOf mem conn.slot := by
      rw [spaceOf, spaceOf, unsent.slots]
    rw [← space]
    exact sendOnConnection_returns mss unfailing

end Calls

/-- When `send` delivers what `send_space` promises.  Take any reachable state and any
connection that is sendable in it, and let neither the pool nor the data queue fail.  Then
`send` returns the smaller of the number of bytes and what `send_space` returns if and only
if that is zero, or headers and the largest segment to be sent fit the buffers of the pool.
Otherwise it returns zero. -/
theorem send_fills_window {k : TcpStack} {state : State} (reachable : Reachable k state)
    {conn : ConnId} (held : (state.memory.rx.slots conn.slot).state ≠ .free)
    (ready : ((sendable k conn).run state.memory).1 = true) (bytes : List Byte) {env : SendEnv}
    (unfailing : env.Unfailing) :
    let count := ((send k conn bytes env).run state.memory).1
    let promised := min bytes.length ((sendSpace k conn).run state.memory).1
    (count = promised ↔ promised = 0 ∨
        54 + min (state.memory.rx.slots conn.slot).sendMss.toNat promised ≤ k.mbufRoom) ∧
      (count ≠ promised → count = 0) := by
  intro count promised
  obtain ⟨tx, runs, _⟩ := run_sendable k conn state.memory
  have can : canSend k conn state.memory = true := by rw [← ready, runs]
  have mss := reachable.regular.mss conn.slot (reachable.opened held)
  have returned : count = if 54 + min (state.memory.rx.slots conn.slot).sendMss.toNat promised ≤
      k.mbufRoom then promised else 0 := by
    change ((send k conn bytes env).run state.memory).1 = _
    rw [send_returns can mss unfailing, ← sendSpace_returns can]
  rw [returned]
  split
  · rename_i fits
    exact ⟨⟨fun _ => Or.inr fits, fun _ => rfl⟩, fun differ => absurd rfl differ⟩
  · rename_i unfit
    refine ⟨⟨fun zero => Or.inl zero.symm, ?_⟩, fun _ => rfl⟩
    rintro (zero | fits)
    · exact zero.symm
    · exact absurd fits unfit

/-- Three bytes on an accepted connection. -/
theorem send_fills_window_of_three_bytes :
    let mem := singleSlotAccepted.memory
    let env : SendEnv := ⟨fun _ _ => true, fun _ => maxBurst⟩
    ((sendSpace singleSlot ⟨0, 1⟩).run mem).1 = 1000 ∧
      ((send singleSlot ⟨0, 1⟩ [1, 2, 3] env).run mem).1 =
        min 3 ((sendSpace singleSlot ⟨0, 1⟩).run mem).1 := by
  intro mem env
  have held : (mem.rx.slots 0).state ≠ .free := by decide
  have fits : 54 + min (mem.rx.slots 0).sendMss.toNat
      (min [1, 2, 3].length ((sendSpace singleSlot ⟨0, 1⟩).run mem).1) ≤
        singleSlot.mbufRoom := by decide
  exact ⟨by decide, (send_fills_window singleSlotAccepted_reachable held (by decide) [1, 2, 3]
    ⟨fun _ _ => rfl, fun _ => Nat.le_refl _⟩).1.mpr (Or.inr fits)⟩

/-- The small stack with buffers that hold the headers and 46 bytes. -/
def smallBuffers : TcpStack :=
  { singleSlot with mbufRoom := 100 }

/-- That stack when it has accepted a connection. -/
def smallBuffersAccepted : State :=
  ⟨.polling 2,
    ((process smallBuffers (peerPacket 8 1 ackFlag 1000 [])).run
      ((process smallBuffers (peerPacket 7 0 synFlag 1000 [])).run
        (beginPoll.run (Memory.initial smallBuffers)).2).2).2⟩

theorem smallBuffersAccepted_reachable : Reachable smallBuffers smallBuffersAccepted :=
  ((Run.refl.step (.task .beginPoll rfl) trivial).step
    (.task (.packet (peerPacket 7 0 synFlag 1000 [])) rfl) trivial).step
      (.task (.packet (peerPacket 8 1 ackFlag 1000 [])) rfl) trivial

/-- Headers and 47 bytes do not fit, and `send` takes the failed append for an empty pool:
it returns 0 as often as it is tried, although the window has room for 1000 bytes. -/
theorem send_stalls_on_small_buffers :
    let mem := smallBuffersAccepted.memory
    let env : SendEnv := ⟨fun _ _ => true, fun _ => maxBurst⟩
    let bytes : List Byte := List.replicate 47 0
    Reachable smallBuffers smallBuffersAccepted ∧
      ((sendable smallBuffers ⟨0, 1⟩).run mem).1 = true ∧
      ((sendSpace smallBuffers ⟨0, 1⟩).run mem).1 = 1000 ∧
      ((send smallBuffers ⟨0, 1⟩ bytes env).run mem).1 = 0 ∧
      (((send smallBuffers ⟨0, 1⟩ bytes env).run mem).2.tx.slots 0) = mem.tx.slots 0 :=
  ⟨smallBuffersAccepted_reachable, by decide, by decide, by decide, by decide⟩

/-! ## The MSS -/

/-- A burst that is not empty moves on. -/
theorem buildBurst_advances {k : TcpStack} {plan : SendPlan} (mss : 0 < plan.mss)
    (limit : plan.limit ≤ plan.bytes.length) {pool : Nat → Bool} {room n off : Nat}
    (inside : off ≤ plan.limit) (filled : buildBurst k plan pool room n off ≠ []) :
    off < endOffset off (buildBurst k plan pool room n off) := by
  have whole := (buildBurst_carries k mss limit pool room n off
    (buildBurst k plan pool room n off).length inside).1
  rw [List.take_length] at whole
  generalize buildBurst k plan pool room n off = built at whole filled ⊢
  cases built with
  | nil => exact absurd rfl filled
  | cons head rest => exact whole.lt

/-- `parse_mss_option` ends on every byte string without reading beyond it, and returns
the MSS that the options offer by their grammar, which is never zero.  So the `send_mss`
of a connection is never zero in any reachable state, and every burst of `send` that
is not empty moves on. -/
theorem options_offer_mss :
    (∀ opt, ∃ mss, parseMssOption opt = some mss ∧ OffersMss opt mss ∧
      (∀ other, OffersMss opt other → other = mss) ∧ mss ≠ 0) ∧
    ∀ k state, Reachable k state → ∀ i, (state.memory.rx.slots i).state ≠ .free →
      (state.memory.rx.slots i).sendMss ≠ 0 ∧
      ∀ plan : SendPlan, plan.mss = (state.memory.rx.slots i).sendMss.toNat →
        plan.limit ≤ plan.bytes.length → ∀ pool room n off, off ≤ plan.limit →
        buildBurst k plan pool room n off ≠ [] →
        off < endOffset off (buildBurst k plan pool room n off) := by
  constructor
  · intro opt
    obtain ⟨mss, parsed, offers⟩ := parseMssOption_offers opt
    exact ⟨mss, parsed, offers, fun _ other => other.unique offers, offers.ne_zero⟩
  · intro k state reachable i live
    have mss : (state.memory.rx.slots i).sendMss ≠ 0 :=
      reachable.regular.mss i (reachable.opened live)
    refine ⟨mss, ?_⟩
    intro plan planned limit pool room n off inside filled
    have positive : 0 < plan.mss := by
      rw [planned, Nat.pos_iff_ne_zero]
      exact fun zero => mss (BitVec.eq_of_toNat_eq zero)
    exact buildBurst_advances positive limit inside filled

/-- A NOP, a window scale and an MSS of 1460, and the `send_mss` of an accepted connection
whose peer has sent no options. -/
theorem options_offer_mss_of_syn :
    parseMssOption [1, 3, 3, 7, 2, 4, 5, 180, 0] = some 1460 ∧
      OffersMss [1, 3, 3, 7, 2, 4, 5, 180, 0] 1460 ∧
      (singleSlotAccepted.memory.rx.slots 0).sendMss ≠ 0 := by
  have parsed : parseMssOption [1, 3, 3, 7, 2, 4, 5, 180, 0] = some 1460 := by decide
  obtain ⟨mss, same, offers, _⟩ := options_offer_mss.1 [1, 3, 3, 7, 2, 4, 5, 180, 0]
  obtain rfl : mss = 1460 := Option.some.inj (same.symm.trans parsed)
  exact ⟨parsed, offers,
    (options_offer_mss.2 singleSlot _ singleSlotAccepted_reachable 0 (by decide)).1⟩

end DpdkWrapper.Tcp
