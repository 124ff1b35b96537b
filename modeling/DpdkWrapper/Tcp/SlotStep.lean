import DpdkWrapper.Tcp.Accounting
import DpdkWrapper.Tcp.Log
import DpdkWrapper.Tcp.Sender

/-!
# What a step of the inbound thread does to a slot

`SlotStep` lists everything that one atomic step of the inbound thread can do to
one slot, as seen by the outbound thread.  That the receiver's programs make no
other steps is proved once; every property of interleaved runs follows from this
list and from the corresponding one for the outbound thread.
-/

namespace DpdkWrapper.Tcp

open Threads Wire

/-- The states from the `accepted` event to the release of the slot. -/
def TcpState.accepted (state : TcpState) : Bool :=
  state != .free && state != .synReceived

theorem TcpState.accepted_iff {state : TcpState} :
    state.accepted = true ↔ state ≠ .free ∧ state ≠ .synReceived := by
  simp [accepted]

namespace TcpConnection

/-- The fields that stay fixed while a connection lasts. -/
structure Identity where
  generation : BitVec 32
  peerIp : BitVec 32
  peerPort : BitVec 16
  localPort : BitVec 16
  peerMac : Mac
  sendMss : BitVec 16
  iss : BitVec 32
  deriving DecidableEq

def identity (c : TcpConnection) : Identity where
  generation := c.generation
  peerIp := c.peerIp
  peerPort := c.peerPort
  localPort := c.localPort
  peerMac := c.peerMac
  sendMss := c.sendMss
  iss := c.iss

/-- The send side of a connection. -/
structure Numbers where
  sndUna : BitVec 32
  sndWnd : BitVec 32
  sendWindow : BitVec 64
  deriving DecidableEq

def numbers (c : TcpConnection) : Numbers where
  sndUna := c.sndUna
  sndWnd := c.sndWnd
  sendWindow := c.sendWindow

/-- Neither the identity nor the send side changes, and the state at most moves
on among those of an accepted connection. -/
structure Keeps (c c' : TcpConnection) : Prop where
  identity : c'.identity = c.identity
  numbers : c'.numbers = c.numbers
  state : (c'.state = c.state ∧ c'.terminated = c.terminated) ∨
    (c.state.accepted = true ∧ c'.state.accepted = true ∧
      (c.terminated = true → c'.terminated = true))

namespace Keeps

variable {c c' c'' : TcpConnection}

theorem refl (c : TcpConnection) : Keeps c c :=
  ⟨rfl, rfl, Or.inl ⟨rfl, rfl⟩⟩

/-- What is kept by two steps. -/
theorem trans (first : Keeps c c') (second : Keeps c' c'') : Keeps c c'' where
  identity := second.identity.trans first.identity
  numbers := second.numbers.trans first.numbers
  state := by
    rcases first.state with ⟨sameState, sameTerminated⟩ | ⟨before, between, rises⟩
    · rw [← sameState, ← sameTerminated]
      exact second.state
    · rcases second.state with ⟨sameState, sameTerminated⟩ | ⟨_, after, risesToo⟩
      · rw [sameState, sameTerminated]
        exact Or.inr ⟨before, between, rises⟩
      · exact Or.inr ⟨before, after, fun terminated => risesToo (rises terminated)⟩

theorem accepted (keeps : Keeps c c') (before : c.state.accepted = true) :
    c'.state.accepted = true := by
  rcases keeps.state with ⟨sameState, _⟩ | ⟨_, after, _⟩
  · rwa [sameState]
  · exact after

end Keeps

end TcpConnection

/-- One slot in the shared memory, with what the logs say about it. -/
structure SlotView where
  conn : TcpConnection
  out : OutboundFields
  opens : Nat
  resets : Nat
  /-- The connection has been accepted. -/
  taken : Bool
  /-- The slot is on the free list. -/
  listed : Bool
  wire : List TxSegment

def Memory.view (mem : Memory) (i : Nat) : SlotView where
  conn := mem.rx.slots i
  out := mem.tx.slots i
  opens := opens i mem.rx.log
  resets := resets i mem.tx.log
  taken := acceptedSince i mem.rx.log
  listed := mem.rx.freeSlots.contains i
  wire := wire i mem.tx.log

/-- The application holds the connection: it has been accepted, and `close` has
not stored `out_released`. -/
def SlotView.Held (view : SlotView) : Prop :=
  view.conn.state.accepted = true ∧ hasReleased view.out.outFlags = false

/-- What is assumed of an interleaved run: in which slots the outbound thread writes only
connections that the application holds, and which ACKs may be recorded. -/
structure Terms where
  guarded : Nat → Prop
  acks : TcpConnection.Identity → BitVec 32 → Prop

/-- No slot is guarded, and every ACK may be recorded. -/
def Terms.lax : Terms where
  guarded _ := False
  acks _ _ := True

/-- A step of the inbound thread, as far as slot `i` is concerned. -/
inductive SlotStep (terms : Terms) (i : Nat) (view : SlotView) : SlotView → Prop
  | keep {c : TcpConnection} (keeps : view.conn.Keeps c) :
      SlotStep terms i view { view with conn := c }
  /-- `open` stores the generation. -/
  | opening {c : TcpConnection} (free : view.conn.state = .free) (listed : view.listed = true)
      (ready : view.resets = view.opens) (state : c.state = .synReceived)
      (generation : c.generation = nextGeneration view.conn.generation)
      (mss : c.sendMss ≠ 0) :
      SlotStep terms i view
        { view with conn := c, opens := view.opens + 1, taken := false, listed := false }
  /-- Stores of `open` and of the handshake before `accepted`. -/
  | prepare {c : TcpConnection} (before : view.conn.state = .synReceived)
      (identity : c.identity = view.conn.identity) (after : c.state = .synReceived) :
      SlotStep terms i view { view with conn := c }
  | resetNxt (before : view.conn.state = .synReceived) :
      SlotStep terms i view
        { view with out := { view.out with sndNxt := view.conn.iss + 1 } }
  /-- The last store of `open`. -/
  | resetFlags (before : view.conn.state = .synReceived)
      (unready : view.resets + 1 = view.opens)
      (sndNxt : terms.guarded i → view.out.sndNxt = view.conn.iss + 1) :
      SlotStep terms i view
        { view with
          out := { view.out with outFlags := 0 }
          resets := view.resets + 1
          wire := [] }
  | accept {c : TcpConnection} (before : view.conn.state = .synReceived)
      (ready : view.resets = view.opens) (identity : c.identity = view.conn.identity)
      (after : c.state = .established) (una : c.sndUna = c.iss + 1)
      (wnd : c.sndWnd.toNat < 65536)
      (window : c.sendWindow = packWindow c.sndUna c.sndWnd) :
      SlotStep terms i view { view with conn := c, taken := true }
  /-- An acceptable RST in `syn_received`. -/
  | abort {c : TcpConnection} (before : view.conn.state = .synReceived)
      (ready : view.resets = view.opens) (identity : c.identity = view.conn.identity)
      (after : c.state = .free) :
      SlotStep terms i view { view with conn := c, listed := true }
  /-- `process_ack` loads `snd_nxt` and records an ACK. -/
  | record (seg : Segment) (accepted : view.conn.state.accepted = true)
      (admitted : terms.acks view.conn.identity seg.ack)
      (valid : seqGt seg.ack view.out.sndNxt = false) :
      SlotStep terms i view { view with conn := recordAck seg view.conn }
  | publish (accepted : view.conn.state.accepted = true) :
      SlotStep terms i view
        { view with
          conn := { view.conn with
            sendWindow := packWindow view.conn.sndUna view.conn.sndWnd } }
  | release {c : TcpConnection} (closed : view.conn.state = .closed)
      (released : terms.guarded i → hasReleased view.out.outFlags = true)
      (identity : c.identity = view.conn.identity) (after : c.state = .free) :
      SlotStep terms i view { view with conn := c, listed := true }

theorem SlotStep.refl (terms : Terms) (i : Nat) (view : SlotView) : SlotStep terms i view view :=
  SlotStep.keep (TcpConnection.Keeps.refl view.conn)

/-- The logs grow by entries that carry the generation of their slot, and a connection
whose `accepted` event is pushed has been accepted; the inbound thread adds nothing to the
outbound log but resets. -/
structure Logged (mem mem' : Memory) : Prop where
  rx : ∃ entries, mem'.rx.log = entries ++ mem.rx.log ∧
    ∀ event, .event event ∈ entries →
      event.conn.generation = (mem.rx.slots event.conn.slot).generation ∧
        (event.type = .accepted → acceptedSince event.conn.slot mem'.rx.log = true)
  tx : mem'.tx.log = mem.tx.log ∨
    ∃ i, mem'.tx.log = .opened i :: mem.tx.log

/-- A step of the inbound thread. -/
structure InStep (terms : Terms) (mem mem' : Memory) : Prop where
  slot : ∀ i, SlotStep terms i (mem.view i) (mem'.view i)
  logged : Logged mem mem'

/-- What a step of the outbound thread may do to one slot: if it is guarded, only a
connection that the application holds is written, and `out_released` is not taken back. -/
structure OutSlotStep (guarded : Prop) (view view' : SlotView) : Prop where
  conn : view'.conn = view.conn
  opens : view'.opens = view.opens
  resets : view'.resets = view.resets
  taken : view'.taken = view.taken
  listed : view'.listed = view.listed
  out : guarded → view'.out = view.out ∨ view.Held
  released : guarded → hasReleased view.out.outFlags = true →
    hasReleased view'.out.outFlags = true

/-- A step of the outbound thread. -/
structure OutStep (terms : Terms) (mem mem' : Memory) : Prop where
  rx : mem'.rx = mem.rx
  slot : ∀ i, OutSlotStep (terms.guarded i) (mem.view i) (mem'.view i)

theorem OutStep.refl (terms : Terms) (mem : Memory) : OutStep terms mem mem :=
  ⟨rfl, fun _ => ⟨rfl, rfl, rfl, rfl, rfl, fun _ => Or.inl rfl, fun _ => id⟩⟩

/-- Steps of the outbound thread compose. -/
theorem OutStep.trans {terms : Terms} {first second third : Memory}
    (left : OutStep terms first second) (right : OutStep terms second third) :
    OutStep terms first third where
  rx := right.rx.trans left.rx
  slot i := by
    have one := left.slot i
    have two := right.slot i
    constructor
    case conn => exact two.conn.trans one.conn
    case opens => exact two.opens.trans one.opens
    case resets => exact two.resets.trans one.resets
    case taken => exact two.taken.trans one.taken
    case listed => exact two.listed.trans one.listed
    case out =>
      intro guarded
      rcases one.out guarded with same | held
      · rcases two.out guarded with sameToo | held
        · exact Or.inl (sameToo.trans same)
        · rw [SlotView.Held, one.conn, same] at held
          exact Or.inr held
      · exact Or.inr held
    case released =>
      exact fun guarded released => two.released guarded (one.released guarded released)

end DpdkWrapper.Tcp
