import SwStack.Http3.FrameCodec
import SwStack.Http3.QpackRoundTrip
import SwStack.Quic.ReassemblyRuns

/-! HTTP/3 frames on a QUIC stream, which brings their bytes in pieces, in any order and in part
more than once. -/
namespace SwStack.Http3

open SwStack.Lib SwStack.Types SwStack.Quic Fragment List

/-- At every moment a frame is decoded from what has been read exactly when all its bytes have, and
of the frame that is cut off bytes are reported missing; a complete stream is decoded to the frames
that were written, and a field section to its fields. -/
theorem frames_delivered {frames : List Http3.Frame} {content : Bytes} {run : ReassemblyRun}
    (made : ∀ frame ∈ frames, frame.Made) (encoded : encodeFrames frames = .ok content)
    (short : content.length ≤ maxInt)
    (ran : run = (ReassemblyRun.start maxBufferedBytes maxFragments).execute calls)
    (pieces : ∀ piece ∈ run.accepted, PieceOf content piece.offset piece.data ∧
      (piece.fin = true → stop piece.piece = content.length)) :
    (run.stream.isReceiveComplete = true → decodeFrames run.out = .ok frames) ∧
    ∀ front frame back, frames = front ++ frame :: back → ∃ frontBytes bytes,
      encodeFrames front = .ok frontBytes ∧ Http3.encodeFrame frame = .ok bytes ∧
      (frontBytes.length + bytes.length ≤ run.out.length →
        Http3.decodeFrame run.out frontBytes.length =
          (.ok frame, frontBytes.length + bytes.length)) ∧
      (frontBytes.length ≤ run.out.length → run.out.length < frontBytes.length + bytes.length →
        ∃ message ∈ incompleteMessages, ∃ offset,
          Http3.decodeFrame run.out frontBytes.length = (.error (.error message), offset)) ∧
      ∀ headers, frame = .headers (encodeFieldSection headers) → RoundTrips headers := by
  have placed : ∀ piece ∈ run.accepted, PieceOf content piece.offset piece.data :=
    fun piece member => (pieces piece member).1
  have reassembled : Reassembled content run := by
    rw [ran] at placed ⊢
    exact (Reassembled.start content maxBufferedBytes maxFragments).execute calls placed
  have read := reassembled.out
  have inside := reassembled.inside
  refine ⟨fun complete => ?_, ?_⟩
  · obtain ⟨piece, member, fin, out⟩ :=
      (reassembled.isReceiveComplete_iff placed).mp complete
    rw [out, (pieces piece member).2 fin, take_length]
    exact @decodeFramesFrom_eq _ [] _ _ made encoded short le_rfl
  rintro front frame back rfl
  obtain ⟨frontBytes, backBytes, frontEncoded, backEncoded, rfl⟩ := encodeFrames_append encoded
  obtain ⟨bytes, rest, first, more, rfl⟩ := encodeFrames_cons backEncoded
  obtain ⟨payload, built, -, -, whole⟩ := encodeFrame_eq first
  have count : run.out.length = run.stream.readOffset := by
    rw [read, length_take, min_eq_left inside]
  have fits : frontBytes.length + payload.length ≤ maxInt := by
    rw [length_append, length_append, whole, length_append] at short
    omega
  refine ⟨frontBytes, bytes, frontEncoded, first, fun all => ?_, fun begun cut => ?_,
    fun headers same => ?_⟩
  · rw [count] at all
    obtain ⟨extra, offset⟩ := Nat.exists_eq_add_of_le all
    rw [read, offset, Nat.add_assoc, take_length_add_append, take_length_add_append,
      decodeFrame_eq (made frame (mem_append_right _ mem_cons_self)) first]
    · rw [length_append]
    · rw [length_append, length_append] at short
      rw [length_append]
      omega
  · rw [count] at begun cut
    obtain ⟨part, offset⟩ := Nat.exists_eq_add_of_le begun
    rw [read, offset, take_length_add_append, take_append_of_le_length (by omega)]
    have front : bytes.take part <+: bytes := take_prefix part bytes
    obtain ⟨message, listed, failed⟩ := decodeFrame_incomplete first built (by omega)
      front fun whole => by
        have length := congrArg List.length whole
        rw [length_take] at length
        omega
    exact ⟨message, listed, _, failed⟩
  · refine roundTrips_of_findable (foundFrom_of_short ?_)
    rw [same] at built
    cases built
    exact Nat.le_of_add_left_le fits

/-- The DATA frame and the FIN come before the SETTINGS. -/
theorem frames_delivered_swapped :
    decodeFrames ((ReassemblyRun.start 64 8).execute [.receive ⟨5, [0x00, 0x02, 0x68, 0x69], true⟩,
      .receive ⟨0, [0x04, 0x03, 0x01, 0x50, 0x00], false⟩, .readContiguous]).out =
      .ok [.settings [(1, 4096)], .data [0x68, 0x69]] := by
  refine (@frames_delivered _ _ _ [.settings [(1, 4096)], .data [0x68, 0x69]]
    [0x04, 0x03, 0x01, 0x50, 0x00, 0x00, 0x02, 0x68, 0x69] _ ?_ (by decide) (by decide) rfl
    fun piece member => ?_).1 (by decide)
  · simp [Frame.Made]
  · have listed : ((ReassemblyRun.start 64 8).execute
        [.receive ⟨5, [0x00, 0x02, 0x68, 0x69], true⟩,
          .receive ⟨0, [0x04, 0x03, 0x01, 0x50, 0x00], false⟩, .readContiguous]).accepted =
        [⟨5, [0x00, 0x02, 0x68, 0x69], true⟩, ⟨0, [0x04, 0x03, 0x01, 0x50, 0x00], false⟩] := by
      decide
    rw [listed] at member
    fin_cases member <;> exact ⟨⟨by decide, by decide⟩, by decide⟩

end SwStack.Http3
