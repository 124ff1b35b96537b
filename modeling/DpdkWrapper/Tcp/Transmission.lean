import DpdkWrapper.Tcp.Log
import DpdkWrapper.Tcp.Sender

/-!
# What `send` and `close` hand to the data queue

`Carries` relates a list of segments to the range of the argument that they
carry.  The loop of `send` is then a sequence of three moves: publish an offset,
hand over segments up to an offset within it, roll back.  `Sending` collects what
a user of the loop has to show about the moves, under whatever protocol the other
thread follows; `sendLoop_meets` is the rule for the loop.
-/

namespace DpdkWrapper.Tcp

open Threads Wire

/-- The segments carry the bytes from one offset to another, in order and without
gaps, at sequence numbers counted from `base`. -/
inductive Carries (base : BitVec 32) (mss : Nat) (bytes : List Byte) :
    Nat → List TxSegment → Nat → Prop
  | nil (off : Nat) : Carries base mss bytes off [] off
  | cons {off len stop : Nat} {segment : TxSegment} {rest : List TxSegment}
      (positive : 0 < len) (fits : len ≤ mss) (inside : off + len ≤ bytes.length)
      (seq : segment.seq = base + BitVec.ofNat 32 off)
      (payload : segment.payload = (bytes.drop off).take len)
      (noFin : segment.flags &&& finFlag = 0)
      (tail : Carries base mss bytes (off + len) rest stop) :
      Carries base mss bytes off (segment :: rest) stop

namespace Carries

variable {base : BitVec 32} {mss : Nat} {bytes : List Byte} {start middle stop : Nat}
  {first second : List TxSegment}

theorem append (left : Carries base mss bytes start first middle)
    (right : Carries base mss bytes middle second stop) :
    Carries base mss bytes start (first ++ second) stop := by
  induction left with
  | nil => exact right
  | cons positive fits inside seq payload noFin _ ih =>
      exact .cons positive fits inside seq payload noFin (ih right)

theorem le (carries : Carries base mss bytes start first stop) : start ≤ stop := by
  induction carries with
  | nil => exact Nat.le_refl _
  | cons positive _ _ _ _ _ _ ih => omega

theorem lt {head : TxSegment} (carries : Carries base mss bytes start (head :: first) stop) :
    start < stop := by
  cases carries with
  | cons positive _ _ _ _ _ tail =>
      have grows := tail.le
      omega

/-- Each segment lies within the range. -/
theorem within (carries : Carries base mss bytes start first stop) :
    ∀ segment ∈ first, ∃ off, segment.seq = base + BitVec.ofNat 32 off ∧
      off + segment.payload.length ≤ stop := by
  induction carries with
  | nil => exact fun _ member => absurd member List.not_mem_nil
  | @cons off len stop segment rest positive fits inside seq payload noFin tail ih =>
      intro other member
      rcases List.mem_cons.mp member with rfl | later
      · refine ⟨off, seq, ?_⟩
        rw [payload, List.length_take, List.length_drop]
        have grows := tail.le
        omega
      · exact ih other later

/-- The payloads are the range. -/
theorem payloads (carries : Carries base mss bytes start first stop) :
    first.flatMap (·.payload) = (bytes.drop start).take (stop - start) := by
  induction carries with
  | nil => simp
  | @cons off len stop segment rest _ _ _ _ payload _ tail ih =>
      have grows := tail.le
      have split : stop - off = len + (stop - (off + len)) := by omega
      rw [List.flatMap_cons, payload, ih, split, List.take_add, List.drop_drop]

/-- The segments take up the numbers of the range. -/
theorem spans (carries : Carries base mss bytes start first stop) :
    Tcp.spans first = stop - start := by
  induction carries with
  | nil => simp
  | @cons off len stop segment rest _ _ inside _ payload noFin tail ih =>
      have grows := tail.le
      rw [spans_cons, seqSpan_of_noFin noFin, payload, List.length_take, List.length_drop, ih]
      omega

end Carries

theorem endOffset_cons (start : Nat) (head : TxSegment × Nat)
    (rest : List (TxSegment × Nat)) :
    endOffset start (head :: rest) = endOffset head.2 rest := by
  cases rest with
  | nil => rfl
  | cons next rest => simp [endOffset, List.getLast?_cons]

section Burst

variable (k : TcpStack) {plan : SendPlan}

theorem planSegment_eq_some {k : TcpStack} {pool : Bool} {off len : Nat} {segment : TxSegment}
    (built : planSegment k plan pool off len = some segment) :
    segment.seq = plan.base + BitVec.ofNat 32 off ∧
      segment.payload = (plan.bytes.drop off).take len ∧ segment.flags &&& finFlag = 0 := by
  have same := buildSegment_eq_some built
  rw [same]
  refine ⟨rfl, rfl, ?_⟩
  dsimp only
  split <;> decide

/-- Every prefix of a burst carries a range that starts where the burst does and
stays within the limit. -/
theorem buildBurst_carries (mss : 0 < plan.mss) (limit : plan.limit ≤ plan.bytes.length)
    (pool : Nat → Bool) (room n off count : Nat) (inside : off ≤ plan.limit) :
    let part := (buildBurst k plan pool room n off).take count
    Carries plan.base plan.mss plan.bytes off (part.map (·.1)) (endOffset off part) ∧
      endOffset off part ≤ plan.limit := by
  induction room generalizing n off count with
  | zero => exact ⟨by simpa [buildBurst, endOffset] using Carries.nil off,
      by simpa [buildBurst, endOffset] using inside⟩
  | succ room ih =>
      rw [buildBurst]
      have stopped : Carries plan.base plan.mss plan.bytes off [] (endOffset off []) ∧
          endOffset off [] ≤ plan.limit := ⟨.nil off, inside⟩
      split
      · rename_i more
        cases built : planSegment k plan (pool n) off (min plan.mss (plan.limit - off)) with
        | none => simpa [built] using stopped
        | some segment =>
            cases count with
            | zero => exact stopped
            | succ count =>
                obtain ⟨seq, payload, noFin⟩ := planSegment_eq_some built
                have rest := ih (n + 1) (off + min plan.mss (plan.limit - off)) count (by omega)
                simp only [built, List.take_succ_cons, List.map_cons, endOffset_cons]
                refine ⟨.cons ?_ ?_ ?_ seq payload noFin rest.1, rest.2⟩
                · omega
                · omega
                · omega
      · simpa using stopped

theorem endOffset_take_le (mss : 0 < plan.mss) (limit : plan.limit ≤ plan.bytes.length)
    (pool : Nat → Bool) (room n off count : Nat) (inside : off ≤ plan.limit) :
    endOffset off ((buildBurst k plan pool room n off).take count) ≤
      endOffset off (buildBurst k plan pool room n off) := by
  induction room generalizing n off count with
  | zero => simp [buildBurst]
  | succ room ih =>
      have grows := (buildBurst_carries k mss limit pool (room + 1) n off
        (buildBurst k plan pool (room + 1) n off).length inside).1.le
      rw [List.take_length] at grows
      cases count with
      | zero => exact grows
      | succ count =>
          rw [buildBurst]
          split
          · dsimp only
            split
            · exact Nat.le_refl _
            · rw [List.take_succ_cons, endOffset_cons, endOffset_cons]
              exact ih (n + 1) _ count (by omega)
          · exact Nat.le_refl _

end Burst

/-! ## The loop of `send` -/

/-- The store of the sequence number at an offset. -/
def SendPlan.publish (plan : SendPlan) (off : Nat) (mem : Memory) : Memory :=
  ⟨mem.rx, mem.tx.updateSlot plan.slot fun fields =>
    { fields with sndNxt := plan.base + BitVec.ofNat 32 off }⟩

/-- The hand-over of segments. -/
def SendPlan.transmit (plan : SendPlan) (segments : List TxSegment) (mem : Memory) :
    Memory :=
  ⟨mem.rx,
    { mem.tx with log := (segments.map (.sent plan.slot)).reverse ++ mem.tx.log }⟩

/-- A later publication replaces an earlier one. -/
theorem SendPlan.publish_transmit_publish (plan : SendPlan) (later earlier : Nat)
    (sent : List TxSegment) (mem : Memory) :
    plan.publish later (plan.transmit sent (plan.publish earlier mem)) =
      plan.transmit sent (plan.publish later mem) := by
  simp [SendPlan.publish, SendPlan.transmit, Sender.updateSlot]

/-- `holds published taken sent` describes the memory when `send` has published
one offset and the queue has taken the segments `sent`, which end at another.
It is stable, and each move of `send` keeps the guarantee and leads to the
description of what it has done. -/
structure Sending (protocol : Protocol Memory) (plan : SendPlan)
    (holds : Nat → Nat → List TxSegment → Memory → Prop) : Prop where
  stable : ∀ published taken sent mem later, holds published taken sent mem →
    protocol.rely mem later → holds published taken sent later
  publish : ∀ off taken sent mem, holds taken taken sent mem → taken < off →
    off ≤ plan.limit → protocol.assume mem (plan.publish off mem) →
    protocol.guarantee mem (plan.publish off mem) ∧
      holds off taken sent (plan.publish off mem)
  transmit : ∀ off taken stop sent segments mem, holds off taken sent mem →
    Carries plan.base plan.mss plan.bytes taken segments stop → stop ≤ off →
    off ≤ plan.limit → protocol.assume mem (plan.transmit segments mem) →
    protocol.guarantee mem (plan.transmit segments mem) ∧
      holds off stop (sent ++ segments) (plan.transmit segments mem)
  rollBack : ∀ off taken sent mem, holds off taken sent mem → taken ≤ off →
    off ≤ plan.limit → protocol.assume mem (plan.publish taken mem) →
    protocol.guarantee mem (plan.publish taken mem) ∧
      holds taken taken sent (plan.publish taken mem)

/-- Rule for the loop of `send`: it ends with some bytes taken, and the segments
that the queue has taken carry exactly those. -/
theorem sendLoop_meets {protocol : Protocol Memory} (k : TcpStack) {plan : SendPlan}
    {holds : Nat → Nat → List TxSegment → Memory → Prop}
    (sending : Sending protocol plan holds) (mss : 0 < plan.mss)
    (limit : plan.limit ≤ plan.bytes.length) (env : SendEnv) (fuel burst done : Nat)
    (sent : List TxSegment) (mem : Memory) (enough : plan.limit < fuel + done)
    (within : done ≤ plan.limit)
    (carries : Carries plan.base plan.mss plan.bytes 0 sent done)
    (start : holds done done sent mem) :
    (sendLoop k plan env fuel burst done).Meets protocol
      (fun count later => ∃ segments, count ≤ plan.limit ∧
        Carries plan.base plan.mss plan.bytes 0 segments count ∧
        holds count count segments later) mem := by
  induction fuel generalizing burst done sent mem with
  | zero => omega
  | succ fuel ih =>
      have finished : (Program.done done : Code Nat).Meets protocol
          (fun count later => ∃ segments, count ≤ plan.limit ∧
            Carries plan.base plan.mss plan.bytes 0 segments count ∧
            holds count count segments later) mem :=
        Program.meets_done fun later moves =>
          ⟨sent, within, carries, sending.stable _ _ _ _ _ start moves⟩
      rw [sendLoop]
      split
      case isFalse => exact finished
      case isTrue more =>
      dsimp only
      have shorter := fun count =>
        endOffset_take_le k mss limit (env.pool burst) maxBurst 0 done count within
      have part := fun count =>
        buildBurst_carries k mss limit (env.pool burst) maxBurst 0 done count within
      generalize buildBurst k plan (env.pool burst) maxBurst 0 done = built at shorter part ⊢
      split
      case isTrue => exact finished
      case isFalse filled =>
      have whole := part built.length
      rw [List.take_length] at whole
      have grows : done < endOffset done built := by
        cases built with
        | nil => exact absurd rfl filled
        | cons head rest => exact whole.1.lt
      refine Program.meets_modify_bind fun later moves assumed => ?_
      obtain ⟨kept, published⟩ := sending.publish _ _ _ _
        (sending.stable _ _ _ _ _ start moves) grows whole.2 assumed
      refine ⟨kept, Program.meets_modify_bind fun later' moves' assumed' => ?_⟩
      have taken := part (min (env.take burst) built.length)
      obtain ⟨kept', transmitted⟩ := sending.transmit _ _ _ _ _ _
        (sending.stable _ _ _ _ _ published moves') taken.1 (shorter _) whole.2 assumed'
      have total := carries.append taken.1
      refine ⟨kept', ?_⟩
      split
      · refine Program.meets_modify_bind fun later'' moves'' assumed'' => ?_
        obtain ⟨kept'', back⟩ := sending.rollBack _ _ _ _
          (sending.stable _ _ _ _ _ transmitted moves'') (shorter _) whole.2 assumed''
        refine ⟨kept'', Program.meets_done fun final moves => ?_⟩
        exact ⟨_, taken.2, total, sending.stable _ _ _ _ _ back moves⟩
      · rename_i all
        have everything : built.take (min (env.take burst) built.length) = built :=
          List.take_of_length_le (by omega)
        rw [everything] at transmitted total ⊢
        split
        · refine Program.meets_done fun final moves => ?_
          exact ⟨_, whole.2, total, sending.stable _ _ _ _ _ transmitted moves⟩
        · exact ih (burst + 1) _ _ _ (by omega) whole.2 total transmitted

/-! ## The loop of `close` -/

/-- A FIN with a sequence number. -/
structure IsFin (seq : BitVec 32) (segment : TxSegment) : Prop where
  seq : segment.seq = seq
  payload : segment.payload = []
  flags : segment.flags = finFlag ||| ackFlag

theorem IsFin.seqSpan {seq : BitVec 32} {segment : TxSegment} (fin : IsFin seq segment) :
    Tcp.seqSpan segment = 1 := by
  rw [Tcp.seqSpan, fin.payload, fin.flags]
  decide

/-- `holds sent` describes the memory before and after the queue has taken the
FIN. -/
structure Finishing (protocol : Protocol Memory) (slot : Nat) (seq : BitVec 32)
    (holds : List TxSegment → Memory → Prop) : Prop where
  stable : ∀ sent mem later, holds sent mem → protocol.rely mem later →
    holds sent later
  transmit : ∀ segment mem, holds [] mem → IsFin seq segment →
    let after : Memory := ⟨mem.rx,
      { mem.tx with log := .sent slot segment :: mem.tx.log }⟩
    protocol.assume mem after → protocol.guarantee mem after ∧ holds [segment] after

/-- Rule for the retry loop of `close`: the queue takes one FIN or none. -/
theorem finLoop_meets {protocol : Protocol Memory} (k : TcpStack) {conn : ConnId}
    {seq : BitVec 32} {holds : List TxSegment → Memory → Prop}
    (finishing : Finishing protocol conn.slot seq holds) (addr : SegmentAddr)
    (env : CloseEnv) (retries attempt : Nat) (fin : Option TxSegment) (mem : Memory)
    (built : ∀ segment ∈ fin, IsFin seq segment) (start : holds [] mem) :
    (finLoop k conn addr seq env retries attempt fin).Meets protocol
      (fun _ later => ∃ segments, (∀ segment ∈ segments, IsFin seq segment) ∧
        segments.length ≤ 1 ∧ holds segments later) mem := by
  induction retries generalizing attempt fin mem with
  | zero =>
      refine Program.meets_done fun later moves => ?_
      exact ⟨[], by simp, by simp, finishing.stable _ _ _ start moves⟩
  | succ retries ih =>
      have attempted : ∀ (segment : TxSegment) (later : Memory), IsFin seq segment →
          holds [] later →
          (if env.takes attempt then transmit conn.slot [segment]
            else finLoop k conn addr seq env retries (attempt + 1) (some segment)).Meets protocol
            (fun _ later => ∃ segments, (∀ segment ∈ segments, IsFin seq segment) ∧
              segments.length ≤ 1 ∧ holds segments later) later := by
        intro segment later isFin held
        split
        · refine Program.meets_modify fun final moves assumed => ?_
          obtain ⟨kept, sent⟩ := finishing.transmit segment final
            (finishing.stable _ _ _ held moves) isFin assumed
          refine ⟨kept, fun last further => ?_⟩
          exact ⟨[segment], by simpa using isFin, by simp,
            finishing.stable _ _ _ sent further⟩
        · exact ih (attempt + 1) (some segment) later (by simpa using isFin) held
      cases fin with
      | some segment => exact attempted segment mem (built segment rfl) start
      | none =>
          refine Program.meets_read_bind fun later moves => ?_
          have held := finishing.stable _ _ _ start moves
          cases made : buildSegment k.mbufRoom (env.pool attempt) addr seq
              (later.rx.slots conn.slot).rcvNxt (finFlag ||| ackFlag) k.receiveWindow [] 0 with
          | none => exact ih (attempt + 1) none later (by simp) held
          | some segment =>
              have same := buildSegment_eq_some made
              exact attempted segment later (by rw [same]; exact ⟨rfl, rfl, rfl⟩) held

end DpdkWrapper.Tcp
