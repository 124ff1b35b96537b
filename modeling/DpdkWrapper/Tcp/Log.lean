import DpdkWrapper.Tcp.Memory

/-!
# Reading the logs

A slot serves one connection after another, and `opened` separates them in the
logs.  The functions here read off how often a slot has been opened and what has
happened since it was opened last.
-/

namespace DpdkWrapper.Tcp

open Wire

/-- Whether an entry is the `accepted` event of a slot. -/
def RxEntry.accepts (slot : Nat) : RxEntry → Bool
  | .event pushed => pushed.type == .accepted && pushed.conn.slot == slot
  | _ => false

/-- How often a slot has been opened. -/
def opens (slot : Nat) (log : List RxEntry) : Nat :=
  log.count (.opened slot)

/-- How often the outbound fields of a slot have been reset. -/
def resets (slot : Nat) (log : List TxEntry) : Nat :=
  log.count (.opened slot)

/-- The entries since a slot was opened last. -/
def rxSince (slot : Nat) (log : List RxEntry) : List RxEntry :=
  log.takeWhile (· != .opened slot)

/-- The entries since the outbound fields of a slot were reset last. -/
def txSince (slot : Nat) (log : List TxEntry) : List TxEntry :=
  log.takeWhile (· != .opened slot)

/-- Whether the connection in a slot has been accepted. -/
def acceptedSince (slot : Nat) (log : List RxEntry) : Bool :=
  (rxSince slot log).any (RxEntry.accepts slot)

/-- The segments of a slot that the data queue has taken since its outbound
fields were reset, newest first. -/
def wire (slot : Nat) (log : List TxEntry) : List TxSegment :=
  (txSince slot log).filterMap fun
    | .sent owner segment => if owner = slot then some segment else none
    | _ => none

/-- The sequence numbers that a segment takes up: one for each byte and one for a FIN. -/
def seqSpan (segment : TxSegment) : Nat :=
  segment.payload.length + if segment.flags &&& finFlag = 0 then 0 else 1

/-- The sequence numbers that some segments take up. -/
def spans (segments : List TxSegment) : Nat :=
  (segments.map seqSpan).sum

@[simp]
theorem spans_nil : spans [] = 0 :=
  rfl

@[simp]
theorem spans_cons (segment : TxSegment) (older : List TxSegment) :
    spans (segment :: older) = seqSpan segment + spans older := by
  simp [spans]

theorem spans_append (newer older : List TxSegment) :
    spans (newer ++ older) = spans newer + spans older := by
  simp [spans]

theorem spans_reverse (segments : List TxSegment) : spans segments.reverse = spans segments := by
  simp [spans]

theorem seqSpan_of_noFin {segment : TxSegment} (noFin : segment.flags &&& finFlag = 0) :
    seqSpan segment = segment.payload.length := by
  simp [seqSpan, noFin]

theorem opens_cons_self (slot : Nat) (log : List RxEntry) :
    opens slot (.opened slot :: log) = opens slot log + 1 := by
  simp [opens]

theorem opens_cons_of_ne {slot : Nat} {entry : RxEntry} (other : entry ≠ .opened slot)
    (log : List RxEntry) : opens slot (entry :: log) = opens slot log := by
  simp [opens, other]

theorem rxSince_cons_self (slot : Nat) (log : List RxEntry) :
    rxSince slot (.opened slot :: log) = [] := by
  simp [rxSince]

theorem rxSince_cons_of_ne {slot : Nat} {entry : RxEntry} (other : entry ≠ .opened slot)
    (log : List RxEntry) : rxSince slot (entry :: log) = entry :: rxSince slot log := by
  simp [rxSince, other]

theorem acceptedSince_cons_self (slot : Nat) (log : List RxEntry) :
    acceptedSince slot (.opened slot :: log) = false := by
  simp [acceptedSince, rxSince_cons_self]

theorem acceptedSince_cons_of_ne {slot : Nat} {entry : RxEntry}
    (other : entry ≠ .opened slot) (log : List RxEntry) :
    acceptedSince slot (entry :: log) =
      (entry.accepts slot || acceptedSince slot log) := by
  simp [acceptedSince, rxSince_cons_of_ne other]

theorem resets_cons_self (slot : Nat) (log : List TxEntry) :
    resets slot (.opened slot :: log) = resets slot log + 1 := by
  simp [resets]

theorem resets_cons_of_ne {slot : Nat} {entry : TxEntry} (other : entry ≠ .opened slot)
    (log : List TxEntry) : resets slot (entry :: log) = resets slot log := by
  simp [resets, other]

theorem txSince_cons_self (slot : Nat) (log : List TxEntry) :
    txSince slot (.opened slot :: log) = [] := by
  simp [txSince]

theorem txSince_cons_of_ne {slot : Nat} {entry : TxEntry} (other : entry ≠ .opened slot)
    (log : List TxEntry) : txSince slot (entry :: log) = entry :: txSince slot log := by
  simp [txSince, other]

end DpdkWrapper.Tcp
