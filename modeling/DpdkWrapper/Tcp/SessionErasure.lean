import DpdkWrapper.Tcp.ClientSlots

/-!
# A connection does not see its slot

`process_segment` writes the slot and the generation into events and reads neither, and
it does not look at what it has done before.  Two sessions that differ in these only
change in the same way and tell the application the same.

`ErasesTo` relates a session to one without slot, generation and past.  The lemmas follow
`process_segment` from its parts to the whole.  This is what makes a client's view of its
connection independent of the slot that the connection happens to be in.
-/

namespace DpdkWrapper.Tcp

open Threads Wire

/-- `plain` is `session` without its slot, its generation and what was said `before`. -/
structure ErasesTo (before : List (TcpEventType × List Byte)) (session plain : Session) : Prop where
  conn : plain.conn = { session.conn with generation := 0 }
  out : plain.out = session.out
  said : saidIn session.history = saidIn plain.history ++ before

/-- What a connection becomes does not depend on its generation. -/
def GenerationFree (change : TcpConnection → TcpConnection) : Prop :=
  ∀ c, change { c with generation := 0 } = { change c with generation := 0 }

theorem recordAck_independent (seg : Segment) : GenerationFree (recordAck seg) := by
  intro c
  unfold recordAck
  dsimp only
  split <;> split <;> rfl

namespace ErasesTo

variable {before : List (TcpEventType × List Byte)} {session plain : Session}

/-- A connection as a link. -/
theorem link (mem : Memory) (i : Nat) :
    ErasesTo (saidIn (mem.session i).history) (mem.session i) (mem.link i).session :=
  ⟨rfl, rfl, rfl⟩

theorem state (erases : ErasesTo before session plain) : plain.conn.state = session.conn.state := by
  rw [erases.conn]

theorem rcvNxtLocal (erases : ErasesTo before session plain) :
    plain.conn.rcvNxtLocal = session.conn.rcvNxtLocal := by
  rw [erases.conn]

theorem rstAcceptable (erases : ErasesTo before session plain) (k : TcpStack) (seg : Segment) :
    Tcp.rstAcceptable k plain.conn seg = Tcp.rstAcceptable k session.conn seg := by
  rw [erases.conn]
  rfl

section

variable (erases : ErasesTo before session plain)
include erases

theorem update {change : TcpConnection → TcpConnection} (independent : GenerationFree change) :
    ErasesTo before (session.update change) (plain.update change) where
  conn := by
    rw [Session.update, erases.conn]
    exact independent session.conn
  out := erases.out
  said := erases.said

theorem setState (state : TcpState) : ErasesTo before (session.setState state)
    (plain.setState state) :=
  erases.update fun _ => rfl

theorem push (type : TcpEventType) (data : List Byte) :
    ErasesTo before (session.push type data) (plain.push type data) :=
  ⟨erases.conn, erases.out, congrArg ((type, data) :: ·) erases.said⟩

/-- Entries that tell the application nothing. -/
theorem note {entry entry' : RxEntry} (silent : entry.spoken? = none)
    (silent' : entry'.spoken? = none) :
    ErasesTo before (session.note entry) (plain.note entry') where
  conn := erases.conn
  out := erases.out
  said := by
    have same : saidIn (session.note entry).history = saidIn session.history :=
      List.filterMap_cons_none silent
    have same' : saidIn (plain.note entry').history = saidIn plain.history :=
      List.filterMap_cons_none silent'
    rw [same, same', erases.said]

theorem terminate (why : TcpEventType) :
    ErasesTo before (session.terminate why) (plain.terminate why) :=
  (erases.update fun _ => rfl).push why []

theorem syncOutFlags : ErasesTo before session.syncOutFlags plain.syncOutFlags := by
  rw [Session.syncOutFlags_eq, Session.syncOutFlags_eq, erases.state, erases.out]
  exact erases.setState _

theorem finishAck (seg : Segment) :
    (plain.finishAck seg).1 = (session.finishAck seg).1 ∧
      ErasesTo before (session.finishAck seg).2 (plain.finishAck seg).2 := by
  unfold Session.finishAck
  rw [erases.state, erases.out]
  split
  · split
    · exact ⟨rfl, erases.setState .finWait2⟩
    · exact ⟨rfl, erases.terminate .closed⟩
    · exact ⟨rfl, erases.terminate .closed⟩
    · exact ⟨rfl, erases⟩
  · exact ⟨rfl, erases⟩

theorem record (seg : Segment) : ErasesTo before (session.record seg) (plain.record seg) := by
  refine erases.update fun c => ?_
  have changes : ackChanges seg { c with generation := 0 } = ackChanges seg c := by
    rw [ackChanges, recordAck_independent]
    rfl
  dsimp only
  rw [changes, recordAck_independent]
  split <;> rfl

theorem processAck (seg : Segment) :
    (plain.processAck seg).1 = (session.processAck seg).1 ∧
      ErasesTo before (session.processAck seg).2 (plain.processAck seg).2 := by
  unfold Session.processAck
  rw [erases.out]
  split
  · exact ⟨rfl, erases.note rfl rfl⟩
  · exact (erases.record seg).finishAck seg

theorem deliver (seg : Segment) : ErasesTo before (session.deliver seg) (plain.deliver seg) := by
  unfold Session.deliver
  rw [erases.rcvNxtLocal]
  split
  · exact (erases.push .data _).update fun _ => rfl
  · exact erases

theorem takeFin : ErasesTo before session.takeFin plain.takeFin :=
  (erases.update fun _ => rfl).note rfl rfl

theorem consumeFin : ErasesTo before session.consumeFin plain.consumeFin := by
  unfold Session.consumeFin
  rw [erases.state]
  split
  · exact (erases.takeFin.setState .closeWait).push .peerClosed []
  · exact erases.takeFin.setState .closing
  · exact erases.takeFin.terminate .closed
  · exact erases.takeFin

theorem publishRcvNxt : ErasesTo before session.publishRcvNxt plain.publishRcvNxt :=
  erases.update fun _ => rfl

theorem accept (seg : Segment) : ErasesTo before (session.accept seg) (plain.accept seg) := by
  have delivered := erases.deliver seg
  unfold Session.accept
  dsimp only
  rw [delivered.rcvNxtLocal]
  split
  · exact delivered.consumeFin.publishRcvNxt
  · exact delivered.publishRcvNxt

theorem processData (seg : Segment) :
    ErasesTo before (session.processData seg) (plain.processData seg) := by
  unfold Session.processData
  rw [erases.state, erases.rcvNxtLocal]
  split
  · exact erases
  · split
    · exact erases
    · split
      · exact erases
      · exact erases.accept seg

theorem establish (seg : Segment) : ErasesTo before (session.establish seg) (plain.establish seg) :=
  ((erases.update fun _ => rfl).setState .established).push .accepted []

theorem processHandshake (k : TcpStack) (seg : Segment) :
    ErasesTo before (session.processHandshake k seg) (plain.processHandshake k seg) := by
  have iss : plain.conn.iss = session.conn.iss := by rw [erases.conn]
  unfold Session.processHandshake
  rw [erases.rstAcceptable, iss]
  split
  · split
    · exact erases.setState .free
    · exact erases
  · split
    · exact erases
    · exact (erases.establish seg).processData seg

theorem processSynchronized (k : TcpStack) (seg : Segment) :
    ErasesTo before (session.processSynchronized k seg) (plain.processSynchronized k seg) := by
  obtain ⟨checks, checked⟩ := erases.processAck seg
  unfold Session.processSynchronized
  dsimp only
  rw [erases.rstAcceptable, checks]
  split
  · split
    · exact erases.terminate .reset
    · exact erases
  · split
    · exact erases
    · split
      · exact checked.processData seg
      · exact checked

theorem processSegment (k : TcpStack) (seg : Segment) :
    ErasesTo before (session.processSegment k seg) (plain.processSegment k seg) := by
  have synced := erases.syncOutFlags
  unfold Session.processSegment
  dsimp only
  rw [synced.state]
  split
  · exact synced
  · exact synced
  · exact synced.processHandshake k seg
  · exact synced.processSynchronized k seg

theorem owes (seg : Segment) : plain.owes seg = session.owes seg := by
  have synced := erases.syncOutFlags
  have iss : plain.conn.iss = session.conn.iss := by rw [erases.conn]
  unfold Session.owes
  dsimp only
  rw [synced.state, iss, erases.out, (synced.processAck seg).1]

theorem cancels (k : TcpStack) (seg : Segment) : plain.cancels k seg = session.cancels k seg := by
  unfold Session.cancels
  rw [erases.state, erases.rstAcceptable]

/-- What is answered at once is the same. -/
theorem reply (k : TcpStack) (seg : Segment) (pool : Bool) :
    plain.reply k seg pool = session.reply k seg pool := by
  have iss : plain.conn.iss = session.conn.iss := by rw [erases.conn]
  have irs : plain.conn.irs = session.conn.irs := by rw [erases.conn]
  have answer : synAck k plain.conn pool = synAck k session.conn pool := by
    rw [erases.conn]
    rfl
  unfold Session.reply
  rw [erases.state, iss, irs, answer]

end

end ErasesTo

end DpdkWrapper.Tcp
