import DpdkWrapper.Tcp.SessionRuns

/-!
# Reading the history of a connection

What the application has been told, which bytes it has got, and whether the peer's
FIN has been consumed.
-/

namespace DpdkWrapper.Tcp

open Wire

namespace RxEntry

/-- The payload of a `data` event. -/
def data : RxEntry → List Byte
  | .event pushed => if pushed.type = .data then pushed.data else []
  | _ => []

@[simp]
def isFin : RxEntry → Bool
  | .finConsumed _ => true
  | _ => false

/-- The entry is an event of this type. -/
@[simp]
def tells (type : TcpEventType) : RxEntry → Bool
  | .event pushed => pushed.type == type
  | _ => false

end RxEntry

/-- The payloads of all `data` events of a history, in order. -/
def delivered (history : List RxEntry) : List Byte :=
  history.reverse.flatMap RxEntry.data

/-- The peer's FIN has been consumed. -/
def finConsumed (history : List RxEntry) : Bool :=
  history.any RxEntry.isFin

/-- The application has been told an event of this type. -/
def told (type : TcpEventType) (history : List RxEntry) : Bool :=
  history.any (RxEntry.tells type)

section

variable (type : TcpEventType) (entry : RxEntry) (history : List RxEntry)

@[simp]
theorem delivered_nil : delivered [] = [] := rfl

@[simp]
theorem delivered_cons : delivered (entry :: history) = delivered history ++ entry.data := by
  simp [delivered]

@[simp]
theorem finConsumed_nil : finConsumed [] = false := rfl

@[simp]
theorem finConsumed_cons :
    finConsumed (entry :: history) = (entry.isFin || finConsumed history) := by
  simp [finConsumed]

@[simp]
theorem told_nil : told type [] = false := rfl

@[simp]
theorem told_cons : told type (entry :: history) = (entry.tells type || told type history) := by
  simp [told]

@[simp]
theorem told_append (later : List RxEntry) :
    told type (later ++ history) = (told type later || told type history) := by
  simp [told]

end

end DpdkWrapper.Tcp
