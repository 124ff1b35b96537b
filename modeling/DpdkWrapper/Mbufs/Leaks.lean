import DpdkWrapper.Mbufs.Sending

/-!
# The stack loses no mbuf

Both threads allocate from one pool and send to one device, and their steps interleave in any
way with each other and with what the driver does.  No mbuf is freed twice, sent while it is
not the sender's, or forgotten.
-/

namespace DpdkWrapper.Mbufs

open Threads
open Heap

/-- The threads keep to each other's terms, and the driver to both. -/
theorem parallel_mbufs :
    @ParallelBeside Buffers inbound outbound DriverMove (fun _ _ => True) (fun _ => polling)
      (fun _ => Polled) (fun _ => sending) (fun _ => OutboundVars 0 0 0 0) where
  threads :=
    { first := inbound_keeps
      second := outbound_keeps
      firstRelies := fun _ _ _ _ _ kept => kept
      secondRelies := fun _ _ _ _ _ kept => kept }
  firstRelies _ _ _ move := move.byOutbound
  secondRelies _ _ _ move := move.byInbound

theorem sound_control : (Heap.initial.declare control maxControl).Sound [] :=
  sound_initial.declare rfl maxControl

theorem vars_initial : InboundVars 0 0 Buffers.initial where
  sound := sound_control
  pkt := rfl
  answer := rfl
  control := rfl
  queue i := ⟨fun full => absurd rfl full, fun impossible => absurd impossible (Nat.not_lt_zero i)⟩
  small := Nat.zero_le _
  account := rfl

theorem initial_sound : Running.initial.Sound (fun _ => polling) (fun _ => Polled)
    (fun _ => sending) (fun _ => OutboundVars 0 0 0 0) where
  first := Program.meets_done fun _ moves =>
    Polled.stable moves ⟨⟨vars_initial, rfl⟩, rfl⟩
  second := Program.meets_done fun _ moves =>
    OutboundVars.stable moves ⟨sound_control, rfl, rfl, rfl, fun i impossible =>
      absurd impossible (Nat.not_lt_zero i)⟩

/-- No other variable is ever used. -/
structure Confined (buffers : Buffers) : Prop where
  sound : buffers.heap.Sound []
  unused : ∀ name, name ∉ inboundNames → name ∉ outboundNames → buffers.heap.count name = 0

section Runs

variable {running : Running}

theorem confined_of_run (run : Runs Running.initial running) : Confined running.state := by
  refine parallel_mbufs.invariant Confined initial_sound ?_ ?_ ?_ ?_ run
  · refine ⟨sound_control, fun name outside _ => ?_⟩
    have different : name ≠ control := by
      rintro rfl
      exact outside List.mem_cons_self
    exact Function.update_of_ne different _ _
  · exact fun _ _ _ confined _ moves => ⟨moves.sound confined.sound, fun name outside outside' =>
      (moves.alike name outside).count.trans (confined.unused name outside outside')⟩
  · exact fun _ _ _ confined _ moves => ⟨moves.sound confined.sound, fun name outside outside' =>
      (moves.alike name outside').count.trans (confined.unused name outside outside')⟩
  · exact fun _ _ confined move => ⟨move.sound confined.sound, fun name outside outside' =>
      (move.alike name).count.trans (confined.unused name outside outside')⟩

/-! ## A short run -/

/-- A reset, an ARP reply without an mbuf, an ACK that does not fit, and one that finds the
device full. -/
def busyPoll : PollEnv where
  maxCount := 32
  arriving := [7, 8]
  replies := [.rst ⟨some 1, true⟩, .arp ⟨none, true⟩]
  acks := [⟨some 2, false⟩, ⟨some 3, true⟩]
  room := 1

/-- The driver has taken an mbuf to receive into, and the inbound thread has polled. -/
def polledOnce : Buffers :=
  ((inboundRound busyPoll).run (Buffers.initial.onHeap (·.refill 7))).2

theorem polledOnce_run : Runs Running.initial ⟨polledOnce, ⟨(), .done ()⟩, ⟨(), .done ()⟩⟩ := by
  have refilled : Runs Running.initial
      ⟨Buffers.initial.onHeap (·.refill 7), ⟨(), .done ()⟩, ⟨(), .done ()⟩⟩ :=
    .single (.device (.refill 7))
  have polls : inbound.Advances (Buffers.initial.onHeap (·.refill 7)) ⟨(), .done ()⟩ _
      ⟨(), inboundRound busyPoll⟩ := .starts ⟨busyPoll, rfl⟩
  exact (refilled.tail (.thread (.first polls trivial))).trans
    ((Interleaves.finishFirst _ _ _ _).beside _)

/-- The first FIN finds an mbuf but no room on the device. -/
def stubbornClose : CloseEnv where
  build attempt := ⟨some (4 + attempt), true⟩
  room attempt := attempt

/-- After five steps of `close` the driver gives back the reset of the poll, while `close`
holds on to its FIN. -/
def closing : Program Buffers Unit × Buffers :=
  let stopped := (closeFin stubbornClose).advance 5 polledOnce
  (stopped.1, stopped.2.onHeap (·.complete 1))

theorem closing_run : Runs Running.initial ⟨closing.2, ⟨(), .done ()⟩, ⟨(), closing.1⟩⟩ := by
  have closes : outbound.Advances polledOnce ⟨(), .done ()⟩ polledOnce
      ⟨(), closeFin stubbornClose⟩ := .starts (Or.inr ⟨stubbornClose, rfl⟩)
  have stopped := (polledOnce_run.tail (.thread (.second closes trivial))).trans
    ((Interleaves.advanceSecond 5 _ _ _ _).beside _)
  exact stopped.tail (.device (.complete 1))

/-- At every moment of every interleaving: nothing has been given back twice, no null and no
foreign mbuf has been sent, no burst is overrun, nothing is in a packet that is not alive, and
every mbuf the stack holds is in exactly one live packet and not with the driver. -/
theorem stack_never_misuses_an_mbuf (run : Runs Running.initial running) :
    running.state.heap.handles.misuse = [] ∧ running.state.heap.faults = [] ∧
      (∀ address mbuf, running.state.heap.cell address = some mbuf →
        running.state.heap.Live address) ∧
      ∀ mbuf, running.state.heap.handles.owned mbuf = true →
        running.state.heap.driver mbuf = false ∧
          ∃! address, running.state.heap.Live address ∧
            running.state.heap.cell address = some mbuf := by
  have sound := (confined_of_run run).sound
  exact ⟨sound.sole.proper, sound.proper, fun _ _ found => sound.live found, fun mbuf owned =>
    ⟨sound.apart mbuf owned, (sound.owned_iff_live mbuf).mp owned⟩⟩

theorem stack_never_misuses_an_mbuf_of_closing :
    polledOnce.heap.driver 1 = true ∧ closing.2.heap.driver 1 = false ∧
      closing.2.heap.handles.owned 4 = true ∧
      ∃! address, closing.2.heap.Live address ∧ closing.2.heap.cell address = some 4 := by
  have owned : closing.2.heap.handles.owned 4 = true := by decide +kernel
  exact ⟨by decide +kernel, by decide +kernel, owned,
    ((stack_never_misuses_an_mbuf closing_run).2.2.2 4 owned).2⟩

/-- Whenever both threads are between calls, every mbuf is in the pool or with the driver, and
every packet that was queued on the control queue has been sent or counted as dropped. -/
theorem stack_leaks_no_mbuf {buffers : Buffers}
    (run : Runs Running.initial ⟨buffers, ⟨(), .done ()⟩, ⟨(), .done ()⟩⟩) :
    (∀ mbuf, buffers.heap.handles.owned mbuf = false) ∧
      buffers.offered = buffers.sent + buffers.dropped := by
  have sound := parallel_mbufs.sound initial_sound run
  have polled : Polled buffers := sound.first.done
  have outVars : OutboundVars 0 0 0 0 buffers := sound.second.done
  have confined : Confined buffers := confined_of_run run
  have vars := polled.flushed.1
  constructor
  · intro mbuf
    by_contra owned
    rw [Bool.not_eq_false, vars.sound.owned_iff] at owned
    rcases owned with ⟨⟨name, i⟩, found, _⟩
    have full : buffers.heap.cell (name, i) ≠ none := by
      rw [found]
      exact Option.some_ne_none mbuf
    have vacant : buffers.heap.count name = 0 → False := fun unused =>
      full (vars.sound.vacant name i (unused ▸ Nat.zero_le i))
    by_cases inside : name ∈ inboundNames
    · simp only [inboundNames, List.mem_cons, List.not_mem_nil, or_false] at inside
      rcases inside with rfl | rfl | rfl | rfl
      · rw [vars.queue, polled.flushed.2] at full
        exact Nat.not_lt_zero i full
      · exact vacant vars.pkt
      · exact vacant vars.answer
      · exact vacant polled.burst
    · by_cases outside : name ∈ outboundNames
      · simp only [outboundNames, List.mem_cons, List.not_mem_nil, or_false] at outside
        rcases outside with rfl | rfl | rfl
        · exact vacant outVars.segs
        · exact vacant outVars.fin
        · exact vacant outVars.built
      · exact vacant (confined.unused name inside outside)
  · have counted := vars.account
    rw [polled.flushed.2] at counted
    exact counted

theorem stack_leaks_no_mbuf_of_polledOnce :
    polledOnce.heap.driver 1 = true ∧ polledOnce.dropped = 2 ∧
      polledOnce.heap.handles.owned 3 = false ∧
      polledOnce.offered = polledOnce.sent + polledOnce.dropped := by
  have kept := stack_leaks_no_mbuf polledOnce_run
  exact ⟨by decide +kernel, by decide +kernel, kept.1 3, kept.2⟩

end Runs

end DpdkWrapper.Mbufs
