import DpdkWrapper.Tcp.Tasks

/-!
# What calls leave alone

Whatever its id is, a call of the application writes neither the receiver's state
nor the outbound fields of any slot but the one its id names.  This holds of each
of its steps, so it holds under every interleaving.

`CallFrame` is this frame.  It is reflexive and transitive, and holds of loads, of stores to the
slot and of the notes in the log, so it holds of whole programs by the rules of `Always`.  The
rest of the outbound thread's properties start from it: they need to look at the slot of the
call only.
-/

namespace DpdkWrapper.Tcp

open Threads Wire

/-- An entry that a call on an id with this slot can make. -/
def TxEntry.Of (slot : Nat) : TxEntry → Prop
  | .opened _ => False
  | .sent owner _ => owner = slot
  | .released conn => conn.slot = slot
  | .lookupReturned conn _ => conn.slot = slot
  | .sendableReturned conn _ => conn.slot = slot
  | .sendSpaceReturned conn _ => conn.slot = slot
  | .sendReturned conn _ _ => conn.slot = slot
  | .closeReturned conn => conn.slot = slot
  | .nullDereference conn => conn.slot = slot
  | .fault => True

/-- Nothing changes but the outbound fields of one slot and the log, which gets
entries about that slot. -/
structure CallFrame (slot : Nat) (mem mem' : Memory) : Prop where
  rx : mem'.rx = mem.rx
  slots : ∀ i, i ≠ slot → mem'.tx.slots i = mem.tx.slots i
  log : ∃ entries, mem'.tx.log = entries ++ mem.tx.log ∧
    ∀ entry ∈ entries, entry.Of slot

namespace CallFrame

variable {slot : Nat} {first second third : Memory}

theorem refl (slot : Nat) (mem : Memory) : CallFrame slot mem mem :=
  ⟨rfl, fun _ _ => rfl, [], rfl, by simp⟩

/-- Frames compose, so a call keeps what each of its steps keeps. -/
theorem trans (left : CallFrame slot first second) (right : CallFrame slot second third) :
    CallFrame slot first third where
  rx := right.rx.trans left.rx
  slots i other := (right.slots i other).trans (left.slots i other)
  log := by
    obtain ⟨newer, sameNewer, aboutNewer⟩ := right.log
    obtain ⟨older, sameOlder, aboutOlder⟩ := left.log
    refine ⟨newer ++ older, by rw [sameNewer, sameOlder, List.append_assoc], ?_⟩
    intro entry member
    rcases List.mem_append.mp member with inNewer | inOlder
    · exact aboutNewer entry inNewer
    · exact aboutOlder entry inOlder

theorem updateSlot (mem : Memory) (change : OutboundFields → OutboundFields) :
    CallFrame slot mem ⟨mem.rx, mem.tx.updateSlot slot change⟩ where
  rx := rfl
  slots i other := by simp [other]
  log := ⟨[], rfl, by simp⟩

theorem note (mem : Memory) {entry : TxEntry} (about : entry.Of slot) :
    CallFrame slot mem ⟨mem.rx, mem.tx.note entry⟩ where
  rx := rfl
  slots _ _ := rfl
  log := ⟨[entry], rfl, by simpa using about⟩

theorem resets (frame : CallFrame slot first second) (i : Nat) :
    resets i second.tx.log = resets i first.tx.log := by
  obtain ⟨entries, same, about⟩ := frame.log
  have none : .opened i ∉ entries := fun member => about _ member
  rw [Tcp.resets, same, List.count_append, List.count_eq_zero_of_not_mem none, Nat.zero_add,
    Tcp.resets]

end CallFrame

section Calls

variable (k : TcpStack) (conn : ConnId) {slot : Nat}

theorem viewRx_always {α : Type} (value : Receiver → α) :
    (viewRx value).Always (CallFrame slot) :=
  Program.Always.read (CallFrame.refl slot) _

theorem loadOutFlags_always (idx : Nat) : (loadOutFlags idx).Always (CallFrame slot) :=
  Program.Always.read (CallFrame.refl slot) _

theorem loadSndNxt_always (idx : Nat) : (loadSndNxt idx).Always (CallFrame slot) :=
  Program.Always.read (CallFrame.refl slot) _

theorem updateSlot_always (change : OutboundFields → OutboundFields) :
    (outbound (·.updateSlot slot change)).Always (CallFrame slot) :=
  Program.Always.modify fun mem => .updateSlot mem change

theorem returning_always {α : Type} {entry : TxEntry} (about : entry.Of slot) (value : α) :
    (returning entry value).Always (CallFrame slot) :=
  Program.Always.bind (.modify fun mem => .note mem about)
    fun _ => trivial

theorem findSlot_always : (findSlot k conn).Always (CallFrame conn.slot) := by
  refine .ite trivial ?_
  refine (viewRx_always _).bind fun _ => .ite trivial ?_
  refine (loadOutFlags_always _).bind fun _ => (viewRx_always _).bind fun _ => trivial

theorem lookup_always : (lookup k conn).Always (CallFrame conn.slot) :=
  (findSlot_always k conn).bind fun _ => returning_always (by rfl) _

theorem sendable_always : (sendable k conn).Always (CallFrame conn.slot) := by
  refine (lookup_always k conn).bind fun _ => .ite ?_ ?_
  · refine .bind ?_ fun _ => returning_always (by rfl) _
    refine (loadOutFlags_always _).bind fun _ => .ite trivial ?_
    exact (viewRx_always _).bind fun _ => trivial
  · exact returning_always (by rfl) _

theorem sendSpace_always : (sendSpace k conn).Always (CallFrame conn.slot) := by
  refine (sendable_always k conn).bind fun _ => .ite
    (returning_always (by rfl) _) ?_
  refine (lookup_always k conn).bind fun _ => .ite
    (returning_always (by rfl) _) ?_
  exact (viewRx_always _).bind fun _ => (loadSndNxt_always _).bind fun _ =>
    returning_always (by rfl) _

theorem transmit_always (segments : List TxSegment) :
    (transmit slot segments).Always (CallFrame slot) :=
  Program.Always.modify fun mem => ⟨rfl, fun _ _ => rfl, _, rfl, by simp [TxEntry.Of]⟩

/-- The bursts of `send`, by induction over the fuel. -/
theorem sendLoop_always {plan : SendPlan} (here : plan.slot = slot) (env : SendEnv)
    (fuel burst done : Nat) :
    (sendLoop k plan env fuel burst done).Always (CallFrame slot) := by
  subst here
  induction fuel generalizing burst done with
  | zero => exact returning_always (by trivial) _
  | succ fuel ih =>
      refine .ite (.ite trivial ?_) trivial
      refine (updateSlot_always _).bind fun _ => (transmit_always _).bind fun _ => ?_
      refine .ite ?_ (.ite trivial (ih _ _))
      exact (updateSlot_always _).bind fun _ => trivial

/-- `send` changes the outbound fields of its own slot only. -/
theorem send_always (bytes : List Byte) (env : SendEnv) :
    (send k conn bytes env).Always (CallFrame conn.slot) := by
  refine .ite (returning_always (by rfl) _) ?_
  refine (sendable_always k conn).bind fun _ => .ite
    (returning_always (by rfl) _) ?_
  refine (lookup_always k conn).bind fun _ => .ite
    (returning_always (by rfl) _) ?_
  refine .bind ?_ fun _ => returning_always (by rfl) _
  refine (loadSndNxt_always _).bind fun _ => (viewRx_always _).bind fun _ => ?_
  refine .ite trivial ?_
  refine (viewRx_always _).bind fun _ => (viewRx_always _).bind fun _ => ?_
  apply sendLoop_always
  rfl

/-- The attempts of `close`, by induction over the retries. -/
theorem finLoop_always (addr : SegmentAddr) (seq : BitVec 32) (env : CloseEnv)
    (retries attempt : Nat) (fin : Option TxSegment) :
    (finLoop k conn addr seq env retries attempt fin).Always (CallFrame conn.slot) := by
  induction retries generalizing attempt fin with
  | zero => trivial
  | succ retries ih =>
      refine .bind ?_ fun built => ?_
      · cases fin with
        | none => exact (viewRx_always _).bind fun _ => trivial
        | some segment => trivial
      · cases built with
        | none => exact ih _ _
        | some segment => exact .ite (transmit_always _) (ih _ _)

/-- `close` changes the outbound fields of its own slot only. -/
theorem close_always (env : CloseEnv) : (close k conn env).Always (CallFrame conn.slot) := by
  refine (lookup_always k conn).bind fun _ => .ite ?_
    (returning_always (by rfl) _)
  refine (loadOutFlags_always _).bind fun out => .bind ?_ fun _ => ?_
  · refine .ite trivial ?_
    refine (viewRx_always _).bind fun _ => .ite trivial ?_
    refine (loadSndNxt_always _).bind fun _ => (updateSlot_always _).bind fun _ => ?_
    refine (updateSlot_always _).bind fun _ => ?_
    exact (finLoop_always k conn _ _ env _ _ _).bind fun _ => trivial
  · refine .bind (.modify fun mem => ?_)
      fun _ => returning_always (by rfl) _
    exact (CallFrame.updateSlot mem _).trans (.note _ (by rfl))

/-- The step lemma for all calls: another slot's fields, and everything of the receiver's,
stay. -/
theorem Call.code_always (call : Call) : (call.code k).Always (CallFrame call.conn.slot) := by
  cases call with
  | sendable conn => exact (sendable_always k conn).bind fun _ => trivial
  | sendSpace conn => exact (sendSpace_always k conn).bind fun _ => trivial
  | send conn bytes env => exact (send_always k conn bytes env).bind fun _ => trivial
  | close conn env => exact close_always k conn env

theorem Call.run_frame (call : Call) (mem : Memory) :
    CallFrame call.conn.slot mem ((call.code k).run mem).2 :=
  (call.code_always k).run (CallFrame.refl _) (fun _ _ _ => CallFrame.trans) mem

end Calls

end DpdkWrapper.Tcp
