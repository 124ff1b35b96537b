import DpdkWrapper.Tcp.PollLists

/-!
# Bounds and padding

No check reads behind the end of a frame, and once the lengths have been checked none reads
behind the IP packet.  What pads a frame after it has no effect.
-/

namespace DpdkWrapper.Tcp

open Arp Threads Wire

/-- The bytes stand in the frame, in front of a limit. -/
def Spans (frame : List Byte) (limit : Nat) (bytes : List Byte) : Prop :=
  ∃ offset, slice frame offset bytes.length = some bytes ∧ offset + bytes.length ≤ limit

theorem Spans.nil (frame : List Byte) (limit : Nat) : Spans frame limit [] :=
  ⟨0, slice_of_le (Nat.zero_le _), Nat.zero_le _⟩

theorem Spans.mono {frame bytes : List Byte} {limit more : Nat} (spans : Spans frame limit bytes)
    (higher : limit ≤ more) : Spans frame more bytes := by
  obtain ⟨offset, read, below⟩ := spans
  exact ⟨offset, read, Nat.le_trans below higher⟩

/-- A payload stands in the frame, in front of the end of the IP packet. -/
theorem LengthChecked.spans {k : TcpStack} {frame : List Byte} {ipHdrLen ipTotalLen : Nat}
    (checked : LengthChecked frame ipHdrLen ipTotalLen) {contiguous : Bool} {seg : Segment}
    (decoded : Tcp.decode k frame contiguous = some (.segment seg)) {bytes : List Byte}
    (isLast : bytes <:+ seg.payload) : Spans frame (14 + ipTotalLen) bytes := by
  obtain ⟨rfl, _⟩ := checked_of_segment decoded
  obtain ⟨offset, read, atEnd⟩ := checked.payload decoded
  have shorter := isLast.length_le
  exact ⟨_, slice_suffix read isLast, by omega⟩

theorem LengthChecked.processArp {k : TcpStack} {packet : RxPacket} {ipHdrLen ipTotalLen : Nat}
    (checked : LengthChecked packet.frame ipHdrLen ipTotalLen) (rx : Receiver) :
    processArp k packet rx = rx := by
  have totalFits := checked.totalFits
  rw [Tcp.processArp, handleArp, if_neg (by omega), checked.etherType]
  rfl

/-- What pads an IPv4 packet has no effect. -/
theorem LengthChecked.process_eq {k : TcpStack} {packet : RxPacket} {frame : List Byte}
    {ipHdrLen ipTotalLen ipHdrLen' ipTotalLen' : Nat}
    (checked : LengthChecked packet.frame ipHdrLen ipTotalLen)
    (checked' : LengthChecked frame ipHdrLen' ipTotalLen')
    (agree : frame.take (14 + ipTotalLen) = packet.frame.take (14 + ipTotalLen))
    (mem : Memory) :
    (process k { packet with frame := frame }).run mem = (process k packet).run mem := by
  have arp : ∀ rx, Tcp.processArp k { packet with frame := frame } rx = rx :=
    fun rx => LengthChecked.processArp checked' rx
  have same := checked.decode_eq (k := k) checked' agree packet.contiguous
  obtain ⟨verdict, decoded⟩ := Option.isSome_iff_exists.mp
    (decode_isSome k packet.frame packet.contiguous)
  rw [decoded] at same
  rw [process, process, decoded, same]
  cases verdict with
  | arp => rw [run_inbound, run_inbound, checked.processArp, arp]
  | _ => rfl

/-- Frames are read in bounds and without their padding.  In every reachable state and
for every packet, no read of the checks, of `handle_arp` or of `parse_mss_option` leaves
the frame, and what the new events carry stands in the frame.  Once the frame has passed
the IPv4 length checks, all further reads and all these spans end within the IPv4 packet.
So frames that differ only behind it have the same effect on the whole memory. -/
theorem frames_read_in_bounds {k : TcpStack} {state : State} (reachable : Reachable k state)
    (packet : RxPacket) :
    (decode k packet.frame packet.contiguous).isSome ∧
      (∀ neighbors, (handleArp packet.frame (packetLength packet.frame) k.localMac k.localIp
        neighbors k.mbufRoom packet.pool).isSome) ∧
      (∀ seg, decode k packet.frame packet.contiguous = some (.segment seg) →
        (parseMssOption seg.options).isSome) ∧
      ∃ added, ((process k packet).run state.memory).2.rx.log =
          added ++ state.memory.rx.log ∧
        (∀ event ∈ events added, Spans packet.frame packet.frame.length event.data) ∧
        ∀ ipHdrLen ipTotalLen, LengthChecked packet.frame ipHdrLen ipTotalLen →
          decode k packet.frame true = decodeChecked k ipHdrLen ipTotalLen packet.frame ∧
          ReadsBelow (14 + ipTotalLen) packet.frame (decodeChecked k ipHdrLen ipTotalLen) ∧
          (∀ event ∈ events added, Spans packet.frame (14 + ipTotalLen) event.data) ∧
          ∀ (frame : List Byte) (ipHdrLen' ipTotalLen' : Nat),
            LengthChecked frame ipHdrLen' ipTotalLen' →
            frame.take (14 + ipTotalLen) = packet.frame.take (14 + ipTotalLen) →
            (process k { packet with frame := frame }).run state.memory =
              (process k packet).run state.memory := by
  obtain ⟨payload, ⟨added, log, _, _, carried⟩, source⟩ :=
    (process_dispatch reachable.regular.inOrder.accounts packet).pushes
  have spans : ∀ ipHdrLen ipTotalLen, LengthChecked packet.frame ipHdrLen ipTotalLen →
      ∀ event ∈ events added, Spans packet.frame (14 + ipTotalLen) event.data := by
    intro ipHdrLen ipTotalLen checked event member
    have isLast := carried event member
    rcases source with rfl | ⟨seg, decoded, rfl⟩
    · rw [List.suffix_nil.mp isLast]
      exact .nil _ _
    · exact checked.spans decoded isLast
  refine ⟨decode_isSome k _ _, fun neighbors => (handleArp_reads _ _ _ _ _ _).succeeds,
    fun seg _ => parseMssOption_isSome _, added, log, ?_, ?_⟩
  · intro event member
    rcases source with rfl | ⟨seg, decoded, rfl⟩
    · rw [List.suffix_nil.mp (carried event member)]
      exact .nil _ _
    · obtain ⟨_, _, _, checked⟩ := checked_of_segment decoded
      exact (spans _ _ checked event member).mono checked.fits
  · intro ipHdrLen ipTotalLen checked
    refine ⟨checked.decode, checked.reads, spans _ _ checked, ?_⟩
    intro frame ipHdrLen' ipTotalLen' checked' agree
    exact checked.process_eq checked' agree state.memory

/-- Two bytes, with and without three bytes of padding. -/
theorem frames_read_in_bounds_of_padding :
    let packet := peerPacket 8 1 ackFlag 1000 [104, 105]
    let padded := { packet with frame := packet.frame ++ [1, 2, 3] }
    (process singleSlot padded).run singleSlotAccepted.memory =
      (process singleSlot packet).run singleSlotAccepted.memory := by
  intro packet padded
  obtain ⟨_, _, _, added, _, _, checked⟩ :=
    frames_read_in_bounds singleSlotAccepted_reachable packet
  have unpaddedChecked : LengthChecked packet.frame 20 42 :=
    ⟨by decide, ⟨0x45, by decide, by decide, by decide⟩, by decide, by decide, by decide,
      by decide⟩
  have paddedChecked : LengthChecked padded.frame 20 42 :=
    ⟨by decide, ⟨0x45, by decide, by decide, by decide⟩, by decide, by decide, by decide,
      by decide⟩
  exact (checked 20 42 unpaddedChecked).2.2.2 padded.frame 20 42 paddedChecked (by decide)

end DpdkWrapper.Tcp
