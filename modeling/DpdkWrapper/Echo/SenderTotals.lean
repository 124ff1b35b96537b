import DpdkWrapper.Echo.Handover
import Mathlib.Data.List.Nodup

/-!
# What the calls on the sender add up to

The bytes that the sender has taken for a connection are compared with the bytes that have
been received on it, and the connections that have been closed with the items that asked for
it.  Nothing here depends on the ring.
-/

namespace DpdkWrapper.Echo

open Tcp Wire

/-- The bytes that the sender has taken for a connection. -/
def echoed (conn : ConnId) : List SenderCall → List Byte
  | [] => []
  | .send id bytes count :: earlier =>
      echoed conn earlier ++ if id = conn then bytes.take count else []
  | .sendable _ _ :: earlier => echoed conn earlier
  | .close _ :: earlier => echoed conn earlier

/-- The bytes that a piece of work has for a connection. -/
def Work.bytesFor (work : Work) (conn : ConnId) : List Byte :=
  if work.what = .data ∧ work.conn = conn then work.payload else []

def received (conn : ConnId) (works : List Work) : List Byte :=
  works.flatMap (·.bytesFor conn)

/-- The connections that have been closed. -/
def closes : List SenderCall → List ConnId
  | [] => []
  | .close conn :: earlier => conn :: closes earlier
  | .sendable _ _ :: earlier => closes earlier
  | .send _ _ _ :: earlier => closes earlier

theorem received_concat (conn : ConnId) (works : List Work) (work : Work) :
    received conn (works ++ [work]) = received conn works ++ work.bytesFor conn := by
  simp [received]

theorem received_mono (conn : ConnId) {works more : List Work} (grows : works <+: more) :
    received conn works <+: received conn more := by
  rcases grows with ⟨rest, rfl⟩
  rw [received, received, List.flatMap_append]
  exact List.prefix_append _ _

theorem mem_closes {conn : ConnId} {calls : List SenderCall} :
    conn ∈ closes calls ↔ .close conn ∈ calls := by
  induction calls with
  | nil => simp [closes]
  | cons call earlier ih =>
      cases call with
      | sendable id result => simp [closes, ih]
      | send id bytes count => simp [closes, ih]
      | close id => simp [closes, ih]

/-- `sendable` returns true for a connection that it has refused before. -/
def SenderCall.contradicts : SenderCall → SenderCall → Bool
  | .sendable later true, .sendable earlier false => later == earlier
  | _, _ => false

theorem SenderCall.contradicts_iff {later earlier : SenderCall} :
    later.contradicts earlier = true ↔
      ∃ conn, later = .sendable conn true ∧ earlier = .sendable conn false := by
  constructor
  · intro contradicts
    unfold SenderCall.contradicts at contradicts
    split at contradicts
    · rw [beq_iff_eq.mp contradicts]
      exact ⟨_, rfl, rfl⟩
    · cases contradicts
  · rintro ⟨conn, rfl, rfl⟩
    exact beq_self_eq_true conn

/-! ## Bytes -/

/-- The sender has taken what was received up to the current item and `part` of that, or it
has refused the connection, or the server is stopping, and then it has taken less. -/
def SentSoFar (conn : ConnId) (works : List Work) (part : List Byte) (stopSeen : Bool)
    (calls : List SenderCall) : Prop :=
  echoed conn calls = received conn works ++ part ∨
    ((.sendable conn false ∈ calls ∨ stopSeen = true) ∧
      echoed conn calls <+: received conn works)

section SentSoFar

variable {conn : ConnId} {works : List Work} {part : List Byte} {stopSeen : Bool}
  {calls : List SenderCall}

theorem account_nil (conn : ConnId) : SentSoFar conn [] [] false [] :=
  Or.inl rfl

section

variable (account : SentSoFar conn works part stopSeen calls)
include account

/-- A call that takes no bytes. -/
theorem SentSoFar.cons {call : SenderCall}
    (silent : echoed conn (call :: calls) = echoed conn calls) :
    SentSoFar conn works part stopSeen (call :: calls) := by
  rcases account with same | ⟨reason, less⟩
  · exact Or.inl (silent.trans same)
  · refine Or.inr ⟨reason.imp_left (List.mem_cons_of_mem _), ?_⟩
    rw [silent]
    exact less

/-- In all cases the bytes are those received, as far as they go. -/
theorem SentSoFar.below {work : Work} (inside : part <+: work.bytesFor conn) :
    echoed conn calls <+: received conn (works ++ [work]) := by
  rw [received_concat]
  rcases account with same | ⟨_, less⟩
  · rw [same]
    exact (List.prefix_append_right_inj _).mpr inside
  · exact less.trans (List.prefix_append _ _)

/-- The current item is done with: it is finished, or the connection is refused, or the
server is stopping. -/
theorem SentSoFar.finish {work : Work} (inside : part <+: work.bytesFor conn)
    (reason : part = work.bytesFor conn ∨ .sendable conn false ∈ calls ∨ stopSeen = true) :
    SentSoFar conn (works ++ [work]) [] stopSeen calls := by
  have less := account.below inside
  rcases reason with whole | reason
  · rcases account with same | ⟨reason, _⟩
    · refine Or.inl ?_
      rw [received_concat, List.append_nil, same, whole]
    · exact Or.inr ⟨reason, less⟩
  · exact Or.inr ⟨reason, less⟩

theorem SentSoFar.stop : SentSoFar conn works part true calls := by
  rcases account with same | ⟨_, less⟩
  · exact Or.inl same
  · exact Or.inr ⟨Or.inr rfl, less⟩

end

/-- `send` takes the next bytes of the item. -/
theorem SentSoFar.send (account : SentSoFar conn works part false calls)
    (unrefused : .sendable conn false ∉ calls) (bytes : List Byte) (count : Nat) :
    SentSoFar conn works (part ++ bytes.take count) false (.send conn bytes count :: calls) := by
  rcases account with same | ⟨refused | stopping, _⟩
  · refine Or.inl ?_
    rw [echoed, if_pos rfl, same, List.append_assoc]
  · exact absurd refused unrefused
  · cases stopping

end SentSoFar

theorem echoed_send_of_ne {conn id : ConnId} (other : id ≠ conn) (bytes : List Byte)
    (count : Nat) (calls : List SenderCall) :
    echoed conn (.send id bytes count :: calls) = echoed conn calls := by
  rw [echoed, if_neg other, List.append_nil]

/-! ## Closing -/

/-- Each slot's connections come one after the other, with rising generations; none has
generation 0. -/
structure GenerationsIncrease (works : List Work) : Prop where
  order : works.Pairwise fun earlier later => earlier.conn.slot = later.conn.slot →
    earlier.conn.generation.toNat ≤ later.conn.generation.toNat
  valid : ∀ work ∈ works, work.conn.generation ≠ 0

/-- `released_gen_` has the generation of each slot's last closed connection, and no connection
has been closed twice. -/
structure ReleasedMatches (seen : List Work) (released : Nat → BitVec 32)
    (calls : List SenderCall) :
    Prop where
  source : ∀ slot, released slot = 0 ∨ ∃ work ∈ seen, work.conn = ⟨slot, released slot⟩
  below : ∀ conn, .close conn ∈ calls →
    conn.generation.toNat ≤ (released conn.slot).toNat
  made : ∀ slot, released slot = 0 ∨ .close ⟨slot, released slot⟩ ∈ calls
  once : (closes calls).Nodup

section ReleasedMatches

variable {seen : List Work} {released : Nat → BitVec 32} {calls : List SenderCall}

theorem tally_nil (seen : List Work) : ReleasedMatches seen (fun _ => 0) [] where
  source _ := Or.inl rfl
  below _ member := absurd member List.not_mem_nil
  made _ := Or.inl rfl
  once := List.nodup_nil

section

variable (tally : ReleasedMatches seen released calls)
include tally

theorem ReleasedMatches.mono {more : List Work} (grows : ∀ work ∈ seen, work ∈ more) :
    ReleasedMatches more released calls where
  source slot := (tally.source slot).imp_right fun ⟨work, member, same⟩ =>
    ⟨work, grows work member, same⟩
  below := tally.below
  made := tally.made
  once := tally.once

/-- A call that closes nothing. -/
theorem ReleasedMatches.cons {call : SenderCall} (other : ∀ conn, call ≠ .close conn) :
    ReleasedMatches seen released (call :: calls) := by
  have same : closes (call :: calls) = closes calls := by
    cases call with
    | sendable id result => rfl
    | send id bytes count => rfl
    | close id => exact absurd rfl (other id)
  constructor
  case source => exact tally.source
  case below =>
    intro conn member
    rcases List.mem_cons.mp member with new | old
    · exact absurd new.symm (other conn)
    · exact tally.below conn old
  case made => exact fun slot => (tally.made slot).imp_right (List.mem_cons_of_mem _)
  case once =>
    rw [same]
    exact tally.once

/-- A connection whose generation is not the recorded one has not been closed: those that
have been closed in its slot are older. -/
theorem ReleasedMatches.unclosed {conn : ConnId}
    (older : ∀ work ∈ seen, work.conn.slot = conn.slot →
      work.conn.generation.toNat ≤ conn.generation.toNat)
    (different : released conn.slot ≠ conn.generation) : .close conn ∉ calls := by
  intro member
  have below := tally.below conn member
  rcases tally.source conn.slot with zero | ⟨work, inside, same⟩
  · rw [zero] at below different
    exact different (BitVec.eq_of_toNat_eq (Nat.le_zero.mp below).symm)
  · have above := older work inside (by rw [same])
    rw [same] at above
    exact different (BitVec.eq_of_toNat_eq (Nat.le_antisymm above below))

/-- `close_once` where it closes. -/
theorem ReleasedMatches.close {conn : ConnId} {work : Work} (current : work ∈ seen)
    (asked : work.conn = conn)
    (older : ∀ work ∈ seen, work.conn.slot = conn.slot →
      work.conn.generation.toNat ≤ conn.generation.toNat)
    (different : released conn.slot ≠ conn.generation) :
    ReleasedMatches seen (Function.update released conn.slot conn.generation)
      (.close conn :: calls) := by
  have unclosed := tally.unclosed older different
  constructor
  case source =>
    intro slot
    by_cases here : slot = conn.slot
    · subst here
      rw [Function.update_self]
      exact Or.inr ⟨work, current, asked⟩
    · rw [Function.update_of_ne here]
      exact tally.source slot
  case below =>
    intro other member
    by_cases here : other.slot = conn.slot
    · rw [here, Function.update_self]
      rcases List.mem_cons.mp member with same | old
      · cases same
        exact Nat.le_refl _
      · have below := tally.below other old
        rw [here] at below
        rcases tally.source conn.slot with zero | ⟨earlier, inside, same⟩
        · rw [zero] at below
          exact Nat.le_trans below (Nat.zero_le _)
        · have above := older earlier inside (by rw [same])
          rw [same] at above
          exact Nat.le_trans below above
    · rw [Function.update_of_ne here]
      rcases List.mem_cons.mp member with same | old
      · cases same
        exact absurd rfl here
      · exact tally.below other old
  case made =>
    intro slot
    by_cases here : slot = conn.slot
    · subst here
      rw [Function.update_self]
      exact Or.inr List.mem_cons_self
    · rw [Function.update_of_ne here]
      exact (tally.made slot).imp_right (List.mem_cons_of_mem _)
  case once =>
    rw [closes, List.nodup_cons]
    exact ⟨fun member => unclosed (mem_closes.mp member), tally.once⟩

end

end ReleasedMatches

end DpdkWrapper.Echo
