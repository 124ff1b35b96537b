import DpdkWrapper.Serial.Basic
import DpdkWrapper.Wire.Segment

/-!
# Per-connection state

The fields of `tcp_connection`, grouped by the thread that writes them: one
record for those the inbound thread writes and one for the two atomics that the
outbound thread writes.  Sequence numbers, flags and packed windows keep the
width they have in the source.
-/

namespace DpdkWrapper.Tcp

open Wire

/-- `tcp_state`. -/
inductive TcpState where
  | free
  | synReceived
  | established
  | closeWait
  | lastAck
  | finWait1
  | finWait2
  | closing
  | closed
  deriving DecidableEq, Repr, Inhabited

/-- The states in which `process_data` delivers. -/
def TcpState.canReceive (state : TcpState) : Bool :=
  state == .established || state == .finWait1 || state == .finWait2

/-! ## Bits of `out_flags` -/

def outFinSent : BitVec 8 := 1
def outReleased : BitVec 8 := 2

def hasFinSent (out : BitVec 8) : Bool :=
  (out &&& outFinSent) != 0

def hasReleased (out : BitVec 8) : Bool :=
  (out &&& outReleased) != 0

@[simp]
theorem hasFinSent_zero : hasFinSent 0 = false := rfl

@[simp]
theorem hasReleased_zero : hasReleased 0 = false := rfl

@[simp]
theorem hasFinSent_or_finSent (out : BitVec 8) :
    hasFinSent (out ||| outFinSent) = true := by
  revert out
  decide

@[simp]
theorem hasReleased_or_finSent (out : BitVec 8) :
    hasReleased (out ||| outFinSent) = hasReleased out := by
  revert out
  decide

@[simp]
theorem hasReleased_or_released (out : BitVec 8) :
    hasReleased (out ||| outReleased) = true := by
  revert out
  decide

@[simp]
theorem hasFinSent_or_released (out : BitVec 8) :
    hasFinSent (out ||| outReleased) = hasFinSent out := by
  revert out
  decide

/-! ## Sequence space -/

/-- `seq_lt`. -/
def seqLt (a b : BitVec 32) : Bool := Serial.lt a b

/-- `seq_leq`. -/
def seqLeq (a b : BitVec 32) : Bool := Serial.le a b

/-- `seq_gt`. -/
def seqGt (a b : BitVec 32) : Bool := seqLt b a

@[simp]
theorem seqGt_self (a : BitVec 32) : seqGt a a = false :=
  Serial.lt_irrefl a

/-- `seq_geq`. -/
def seqGeq (a b : BitVec 32) : Bool := seqLeq b a

/-- `pack_window`. -/
def packWindow (una wnd : BitVec 32) : BitVec 64 :=
  (una.setWidth 64 <<< 32) ||| wnd.setWidth 64

/-- `window_una`. -/
def windowUna (window : BitVec 64) : BitVec 32 :=
  (window >>> 32).setWidth 32

/-- `window_size`. -/
def windowSize (window : BitVec 64) : BitVec 32 :=
  window.setWidth 32

/-- `window_space`: bytes the peer's window still has room for. -/
def windowSpace (window : BitVec 64) (sndNxt : BitVec 32) : Nat :=
  let rightEdge := windowUna window + windowSize window
  let space := (rightEdge - sndNxt).toInt
  if space > 0 then space.toNat else 0

theorem windowSpace_lt (window : BitVec 64) (sndNxt : BitVec 32) :
    windowSpace window sndNxt < 2 ^ 31 := by
  have bound := @BitVec.toInt_lt 32 (windowUna window + windowSize window - sndNxt)
  rw [windowSpace]
  split
  · omega
  · decide

/-- The acknowledged number is in the upper half of the word, the window in the lower one. -/
theorem packWindow_toNat (una wnd : BitVec 32) :
    (packWindow una wnd).toNat = una.toNat * 2 ^ 32 + wnd.toNat := by
  have unaBound := una.isLt
  have wndBound := wnd.isLt
  simp only [packWindow, BitVec.toNat_or, BitVec.toNat_shiftLeft, BitVec.toNat_setWidth]
  rw [Nat.mod_eq_of_lt (by omega : una.toNat < 2 ^ 64),
    Nat.mod_eq_of_lt (by omega : wnd.toNat < 2 ^ 64),
    Nat.mod_eq_of_lt (by rw [Nat.shiftLeft_eq]; omega : una.toNat <<< 32 < 2 ^ 64),
    ← Nat.shiftLeft_add_eq_or_of_lt wndBound, Nat.shiftLeft_eq]

@[simp]
theorem windowUna_packWindow (una wnd : BitVec 32) :
    windowUna (packWindow una wnd) = una := by
  apply BitVec.eq_of_toNat_eq
  have unaBound := una.isLt
  have wndBound := wnd.isLt
  rw [windowUna, BitVec.toNat_setWidth, BitVec.toNat_ushiftRight, packWindow_toNat,
    Nat.shiftRight_eq_div_pow]
  omega

@[simp]
theorem windowSize_packWindow (una wnd : BitVec 32) :
    windowSize (packWindow una wnd) = wnd := by
  apply BitVec.eq_of_toNat_eq
  have wndBound := wnd.isLt
  rw [windowSize, BitVec.toNat_setWidth, packWindow_toNat]
  omega

/-! ## The connection record -/

/-- The fields of `tcp_connection` that the inbound thread writes: addressing,
its private fields, and the atomics it publishes. -/
structure TcpConnection where
  peerIp : BitVec 32 := 0
  peerPort : BitVec 16 := 0
  localPort : BitVec 16 := 0
  peerMac : Mac := 0
  sendMss : BitVec 16 := 0
  iss : BitVec 32 := 0
  state : TcpState := .free
  irs : BitVec 32 := 0
  rcvNxtLocal : BitVec 32 := 0
  sndUna : BitVec 32 := 0
  sndWnd : BitVec 32 := 0
  sndWl1 : BitVec 32 := 0
  sndWl2 : BitVec 32 := 0
  ackPending : Bool := false
  finalizePending : Bool := false
  generation : BitVec 32 := 0
  rcvNxt : BitVec 32 := 0
  sendWindow : BitVec 64 := 0
  terminated : Bool := false
  deriving DecidableEq, Repr, Inhabited

/-- The fields of `tcp_connection` that the outbound thread writes; the inbound
thread also resets them when it initializes a slot. -/
structure OutboundFields where
  sndNxt : BitVec 32 := 0
  outFlags : BitVec 8 := 0
  deriving DecidableEq, Repr, Inhabited

/-- `conn_id`. -/
structure ConnId where
  slot : Nat
  generation : BitVec 32
  deriving DecidableEq, Repr

/-- `tcp_event_type`. -/
inductive TcpEventType where
  | accepted
  | data
  | peerClosed
  | closed
  | reset
  deriving DecidableEq, Repr

/-- `tcp_event`. -/
structure TcpEvent where
  type : TcpEventType
  conn : ConnId
  data : List Byte
  peerAddr : BitVec 32
  peerPort : BitVec 16
  localPort : BitVec 16
  deriving DecidableEq, Repr

end DpdkWrapper.Tcp
