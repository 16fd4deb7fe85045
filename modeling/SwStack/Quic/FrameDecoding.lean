import SwStack.Quic.FrameRoundTrip

/-! What any input decodes to. Every decoder stays inside its input, moves forward and gives
only frames that the encoder accepts again. -/
namespace SwStack.Quic

open SwStack.Lib SwStack.Types List

def Frame.Encodable (frame : Frame) : Prop := ∃ bytes, encodeFrame frame = .ok bytes

theorem readByte_keeps : readByte.Keeps 1 DecodeFailure.IsError fun _ => True := by
  constructor
  · intro input offset byte next inside read
    unfold readByte at read
    split at read
    · cases read
    · split at read
      · cases read
        exact ⟨le_rfl, by omega, trivial⟩
      · cases read
  · intro input offset problem inside read
    unfold readByte at read
    split at read
    · cases read
      trivial
    · rename_i here
      rw [getElem?_eq_getElem (by omega)] at read
      cases read

theorem remaining_keeps : remaining.Keeps 0 DecodeFailure.IsError fun _ => True := by
  constructor
  · intro input offset value next inside read
    cases read
    exact ⟨le_rfl, inside, trivial⟩
  · intro input offset problem inside read
    cases read

theorem readSlice_keeps (length : Nat) :
    (readSlice length).Keeps length DecodeFailure.IsError fun field =>
      field.length = length ∧ length ≤ maxInt := by
  have read (input : Bytes) (offset : Nat) (inside : offset ≤ input.length) :
      (∃ message, readSlice length input offset = .error (.error message)) ∨
        ∃ field, readSlice length input offset = .ok (field, offset + length) ∧
          field.length = length ∧ length ≤ maxInt ∧ offset + length ≤ input.length := by
    unfold readSlice
    split
    · exact .inl ⟨_, rfl⟩
    split
    · exact .inl ⟨_, rfl⟩
    · have near := sanitizePosition_toInt offset input.length
      rw [mid_toInt (by omega) (by omega)]
      refine .inr ⟨_, rfl, ?_, by omega, by omega⟩
      rw [length_take, length_drop]
      omega
  constructor
  · intro input offset field next inside same
    rcases read input offset inside with ⟨message, failed⟩ | ⟨found, got, size, small, fits⟩
    · cases failed.symm.trans same
    · cases got.symm.trans same
      exact ⟨le_rfl, fits, size, small⟩
  · intro input offset problem inside same
    rcases read input offset inside with ⟨message, failed⟩ | ⟨found, got, size, small, fits⟩
    · cases failed.symm.trans same
      trivial
    · cases got.symm.trans same

theorem keeps_varInt {α : Type} {next : Nat → Decoder α} {holds : α → Prop}
    (each : ∀ value ≤ maxVarInt, (next value).Keeps 0 DecodeFailure.IsError holds) :
    (decodeVarInt >>= next).Keeps 0 DecodeFailure.IsError holds :=
  (decodeVarInt_keeps.bind each).weaken (Nat.zero_le _) fun _ => id

theorem keeps_field {α : Type} {frame : Bytes → α} {holds : α → Prop} {length : Nat}
    (each : ∀ field : Bytes, field.length = length → length ≤ maxVarInt → holds (frame field)) :
    (readSlice length >>= fun data => pure (frame data)).Keeps 0 DecodeFailure.IsError holds := by
  have bound : maxInt ≤ maxVarInt := by decide
  have both : (readSlice length >>= fun data => pure (frame data)).Keeps (length + 0)
      DecodeFailure.IsError holds :=
    (readSlice_keeps length).bind fun field sized => .pure
        (each field sized.1 (sized.2.trans bound))
  exact both.weaken (Nat.zero_le _) fun _ => id

theorem encodable_header {values : List Nat} (kind : UInt8) (data : Bytes)
    (fit : ∀ value ∈ values, value ≤ maxVarInt) :
    ∃ bytes, (appendVarInts values >>= fun header => pure (kind :: (header ++ data))) =
      (.ok bytes : Except String Bytes) := by
  obtain ⟨header, encoded⟩ := appendVarInts_total fit
  rw [encoded]
  exact ⟨_, rfl⟩

theorem encodable_integers {values : List Nat} (kind : UInt8)
    (fit : ∀ value ∈ values, value ≤ maxVarInt) :
    ∃ bytes, (appendVarInts values >>= fun header => pure (kind :: header)) =
      (.ok bytes : Except String Bytes) := by
  obtain ⟨header, encoded⟩ := appendVarInts_total fit
  rw [encoded]
  exact ⟨_, rfl⟩

theorem decodeLimit_keeps {frame : Nat → Frame}
    (encodable : ∀ maximum ≤ maxVarInt, (frame maximum).Encodable) :
    (decodeLimit frame).Keeps 0 DecodeFailure.IsError Frame.Encodable :=
  keeps_varInt fun maximum fits => .pure (encodable maximum fits)

theorem decodeStreamLimit_keeps {frame : Nat → Nat → Frame}
    (encodable : ∀ streamId ≤ maxVarInt, ∀ maximum ≤ maxVarInt, (frame streamId maximum).Encodable)
        :
    (decodeStreamLimit frame).Keeps 0 DecodeFailure.IsError Frame.Encodable :=
  keeps_varInt fun streamId first => keeps_varInt fun maximum second =>
    .pure (encodable streamId first maximum second)

theorem decodeAck_keeps (hasEcn : Bool) :
    (decodeAck hasEcn).Keeps 0 DecodeFailure.IsError Frame.Encodable := by
  refine keeps_varInt fun largest first => keeps_varInt fun delay second =>
    keeps_varInt fun count third => keeps_varInt fun length fourth => ?_
  split
  · exact .fail trivial
  have range : readAckRange.Keeps 0 DecodeFailure.IsError fun range =>
      range.gap ≤ maxVarInt ∧ range.rangeLength ≤ maxVarInt :=
    keeps_varInt fun gap fits => keeps_varInt fun length within => .pure ⟨fits, within⟩
  have counts : (readEcnCounts hasEcn).Keeps 0 DecodeFailure.IsError fun ecn =>
      ∃ bytes, appendEcnCounts ecn = .ok bytes := by
    cases hasEcn with
    | false => exact .pure ⟨[], rfl⟩
    | true =>
      exact keeps_varInt fun ect0 first => keeps_varInt fun ect1 second =>
        keeps_varInt fun ecnCe third => .pure (appendVarInts_total (by simp [first, second, third]))
  refine (range.times count).bind fun ranges sized => (counts.bind fun ecn counted => ?_ :
    Cursor.Keeps _ (0 + 0) _ _)
  refine .pure ?_
  obtain ⟨head, headed⟩ : ∃ head, appendVarInts [largest, delay, ranges.length, length] = .ok head :=
    appendVarInts_total (by simp [first, second, fourth, sized.1, third])
  obtain ⟨body, ranged⟩ : ∃ body, appendVarInts
      (ranges.flatMap fun range => [range.gap, range.rangeLength]) = .ok body := by
    refine appendVarInts_total fun value member => ?_
    obtain ⟨range, within, here⟩ := mem_flatMap.mp member
    have fits := sized.2 range within
    rcases mem_pair.mp here with rfl | rfl
    · exact fits.1
    · exact fits.2
  obtain ⟨tail, counted⟩ := counted
  unfold Frame.Encodable
  rw [encodeFrame, headed, ranged, counted]
  exact ⟨_, rfl⟩

theorem readOptional_keeps (present : Bool) :
    (readOptional present).Keeps 0 DecodeFailure.IsError (· ≤ maxVarInt) := by
  cases present with
  | true => exact decodeVarInt_keeps.weaken (Nat.zero_le _) fun _ => id
  | false => exact .pure (Nat.zero_le _)

theorem readLength_keeps (present : Bool) :
    (readLength present).Keeps 0 DecodeFailure.IsError fun _ => True := by
  cases present with
  | true => exact decodeVarInt_keeps.weaken (Nat.zero_le _) fun _ _ => trivial
  | false => exact remaining_keeps

theorem decodeStream_keeps (frameType : UInt8) :
    (decodeStream frameType).Keeps 0 DecodeFailure.IsError Frame.Encodable := by
  refine keeps_varInt fun streamId first => ?_
  refine (readOptional_keeps _).bind fun offset second =>
    ((readLength_keeps _).bind fun length _ => keeps_field fun data sized fits => ?_ :
      Cursor.Keeps _ (0 + 0) _ _)
  refine encodable_header _ data fun value member => ?_
  rcases mem_cons.mp member with rfl | member
  · exact first
  rcases mem_append.mp member with member | member
  · split at member
    · rw [mem_singleton.mp member]
      exact second
    · cases member
  · rw [mem_singleton.mp member, sized]
    exact fits

theorem decodeNewConnectionId_keeps :
    decodeNewConnectionId.Keeps 0 DecodeFailure.IsError Frame.Encodable := by
  refine keeps_varInt fun sequenceNumber first => keeps_varInt fun retirePriorTo second => ?_
  split
  · exact .fail trivial
  have identified (length : UInt8) : (if length < 1 ∨ 20 < length then
        Cursor.fail (.error "QUIC NEW_CONNECTION_ID length is invalid")
      else do
        let connectionId ← readSlice length.toNat
        let statelessResetToken ← readSlice 16
        return .newConnectionId sequenceNumber retirePriorTo connectionId statelessResetToken :
      Decoder Frame).Keeps 0 DecodeFailure.IsError Frame.Encodable := by
    split
    · exact .fail trivial
    rename_i valid
    simp only [UInt8.lt_iff_toNat_lt, not_or, not_lt] at valid
    have short : 1 ≤ length.toNat ∧ length.toNat ≤ 20 := by
      exact valid
    have fields : Cursor.Keeps (do
        let connectionId ← readSlice length.toNat
        let statelessResetToken ← readSlice 16
        return .newConnectionId sequenceNumber retirePriorTo connectionId statelessResetToken :
      Decoder Frame) (length.toNat + 0) DecodeFailure.IsError Frame.Encodable := by
      refine (readSlice_keeps length.toNat).bind fun connectionId sized =>
        keeps_field fun token sixteen _ => ?_
      obtain ⟨header, headed⟩ : ∃ header,
          appendVarInts [sequenceNumber, retirePriorTo] = .ok header :=
        appendVarInts_total (by simp [first, second])
      unfold Frame.Encodable
      rw [encodeFrame, headed, if_neg (by omega), if_neg (by omega)]
      exact ⟨_, rfl⟩
    exact fields.weaken (Nat.zero_le _) fun _ => id
  have both := readByte_keeps.bind fun length (_ : True) => identified length
  exact both.weaken (Nat.zero_le _) fun _ => id

theorem decodeConnectionClose_keeps (applicationClose : Bool) :
    (decodeConnectionClose applicationClose).Keeps 0 DecodeFailure.IsError Frame.Encodable := by
  refine keeps_varInt fun errorCode first => ?_
  refine (readOptional_keeps _).bind fun frameType second =>
    (keeps_varInt fun length _ => keeps_field fun reason sized fits => ?_ :
      Cursor.Keeps _ 0 _ _)
  refine encodable_header _ reason fun value member => ?_
  rcases mem_cons.mp member with rfl | member
  · exact first
  rcases mem_append.mp member with member | member
  · split at member
    · cases member
    · rw [mem_singleton.mp member]
      exact second
  · rw [mem_singleton.mp member, sized]
    exact fits

theorem decodePathData_keeps (response : Bool) :
    (decodePathData response).Keeps 0 DecodeFailure.IsError Frame.Encodable := by
  refine keeps_field fun data sized _ => ?_
  cases response with
  | true => exact ⟨_, if_neg (not_not.mpr sized)⟩
  | false => exact ⟨_, if_neg (not_not.mpr sized)⟩

theorem decodeDatagram_keeps (hasLength : Bool) :
    (decodeDatagram hasLength).Keeps 0 DecodeFailure.IsError Frame.Encodable := by
  refine (readLength_keeps hasLength).bind fun length _ => keeps_field fun data sized fits => ?_
  exact encodable_header _ data (by simpa [sized] using fits)

theorem decodeCrypto_keeps : decodeCrypto.Keeps 0 DecodeFailure.IsError Frame.Encodable :=
  keeps_varInt fun offset first => keeps_varInt fun length _ => keeps_field fun data sized fits =>
    encodable_header _ data (by simp [first, sized, fits])

theorem decodeNewToken_keeps : decodeNewToken.Keeps 0 DecodeFailure.IsError Frame.Encodable :=
  keeps_varInt fun length _ => keeps_field fun data sized fits =>
    encodable_header _ data (by simp [sized, fits])

theorem decodeResetStream_keeps :
    decodeResetStream.Keeps 0 DecodeFailure.IsError Frame.Encodable :=
  keeps_varInt fun streamId first => keeps_varInt fun errorCode second =>
    keeps_varInt fun finalSize third =>
      .pure (encodable_integers _ (by simp [first, second, third]))

theorem decodeStopSending_keeps :
    decodeStopSending.Keeps 0 DecodeFailure.IsError Frame.Encodable :=
  keeps_varInt fun streamId first => keeps_varInt fun errorCode second =>
    .pure (encodable_integers _ (by simp [first, second]))

theorem decodeResetStreamAt_keeps :
    decodeResetStreamAt.Keeps 0 DecodeFailure.IsError Frame.Encodable := by
  refine keeps_varInt fun streamId first => keeps_varInt fun errorCode second =>
    keeps_varInt fun finalSize third => keeps_varInt fun reliableSize fourth => ?_
  split
  · exact .fail trivial
  · exact .pure (encodable_integers _ (by simp [first, second, third, fourth]))

/-- Every type byte leads to a decoder that keeps inside the input. -/
theorem decodeBody_keeps (frameType : UInt8) :
    (decodeBody frameType).Keeps 0 DecodeFailure.IsError Frame.Encodable := by
  have single {value : Nat} (fits : value ≤ maxVarInt) : ∀ other ∈ [value], other ≤ maxVarInt := by
    simp [fits]
  have two {first second : Nat} (fits : first ≤ maxVarInt) (within : second ≤ maxVarInt) :
      ∀ other ∈ [first, second], other ≤ maxVarInt := by
    simp [fits, within]
  unfold decodeBody
  refine .ite (.pure ⟨_, rfl⟩) ?_
  refine .ite (.pure ⟨_, rfl⟩) ?_
  refine .ite (decodeAck_keeps _) ?_
  refine .ite (decodeResetStream_keeps) ?_
  refine .ite (decodeStopSending_keeps) ?_
  refine .ite (decodeCrypto_keeps) ?_
  refine .ite (decodeNewToken_keeps) ?_
  refine .ite (decodeStream_keeps _) ?_
  refine .ite (decodeLimit_keeps fun maximum fits => encodable_integers _ (single fits)) ?_
  refine .ite (decodeStreamLimit_keeps fun streamId first maximum second =>
    encodable_integers _ (two first second)) ?_
  refine .ite (decodeLimit_keeps fun maximum fits => encodable_integers _ (single fits)) ?_
  refine .ite (decodeLimit_keeps fun maximum fits => encodable_integers _ (single fits)) ?_
  refine .ite (decodeStreamLimit_keeps fun streamId first maximum second =>
    encodable_integers _ (two first second)) ?_
  refine .ite (decodeLimit_keeps fun maximum fits => encodable_integers _ (single fits)) ?_
  refine .ite (decodeNewConnectionId_keeps) ?_
  refine .ite (decodeLimit_keeps fun maximum fits => encodable_integers _ (single fits)) ?_
  refine .ite (decodePathData_keeps false) ?_
  refine .ite (decodePathData_keeps true) ?_
  refine .ite (decodeConnectionClose_keeps _) ?_
  refine .ite (.pure ⟨_, rfl⟩) ?_
  refine .ite (decodeResetStreamAt_keeps) ?_
  refine .ite (decodeDatagram_keeps _) ?_
  exact .fail trivial

theorem decodeFrame_keeps : decodeFrame.Keeps 1 DecodeFailure.IsError Frame.Encodable :=
  readByte_keeps.bind fun frameType _ => decodeBody_keeps frameType

theorem decodeNext_read {payload : Bytes} {offset next : Nat} {frame : Frame}
    (inside : offset < payload.length) (read : decodeNext payload offset = .ok (frame, next)) :
    offset < next ∧ next ≤ payload.length ∧ frame.Encodable := by
  rw [decodeNext, getElem?_eq_getElem inside] at read
  dsimp only at read
  split at read
  · rename_i zero
    cases read
    have short := List.Sublist.length_le
      ((payload.drop offset).takeWhile_sublist (· = (0 : UInt8)))
    have front : 0 < ((payload.drop offset).takeWhile (· = (0 : UInt8))).length := by
      rw [drop_eq_getElem_cons inside, takeWhile_cons_of_pos (by simp [zero])]
      exact Nat.succ_pos _
    rw [length_drop] at short
    exact ⟨by omega, by omega, ⟨_, rfl⟩⟩
  · exact decodeFrame_keeps.read inside.le read

theorem decodeNext_failed {payload : Bytes} {offset : Nat} {problem : DecodeFailure}
    (inside : offset < payload.length) (failed : decodeNext payload offset = .error problem) :
    problem.IsError := by
  rw [decodeNext, getElem?_eq_getElem inside] at failed
  dsimp only at failed
  split at failed
  · cases failed
  · exact decodeFrame_keeps.failed inside.le failed

theorem encodeFrames_total {frames : List Frame} (each : ∀ frame ∈ frames, frame.Encodable) :
    ∃ payload, encodeFrames frames = .ok payload := by
  induction frames with
  | nil => exact ⟨[], rfl⟩
  | cons frame frames ih =>
    obtain ⟨bytes, encoded⟩ := each frame mem_cons_self
    obtain ⟨rest, more⟩ := ih fun other member => each other (mem_cons_of_mem _ member)
    rw [encodeFrames, encoded, more]
    exact ⟨_, rfl⟩

theorem decodeFrames_keeps (payload : Bytes) :
    (∀ frames, decodeFrames payload = .ok frames → ∃ again, encodeFrames frames = .ok again) ∧
    ∀ problem, decodeFrames payload = .error problem → problem.IsError := by
  have ended := @Cursor.untilEnd_keeps _ _ _ decodeNext _ _ payload .unfinished payload.length 0
    decodeNext_read decodeNext_failed (show _ ≤ 0 + _ by omega)
  exact ⟨fun frames same => encodeFrames_total (ended.1 frames same), ended.2⟩

/-- Frames come back, adjacent PADDING merged, exactly when the decoder's own limits hold and
its casts find every field; decoding any input ends inside it with frames that can be encoded
again, or with a message. -/
theorem frames_roundTrip_iff {frames : List Frame} {payload : Bytes}
    (made : ∀ frame ∈ frames, frame.Made) (encoded : encodeFrames frames = .ok payload)
    (input : Bytes) :
    (decodeFrames payload = .ok (mergePaddings frames) ↔ Findable frames) ∧
    (∀ result, decodeFrames input = .ok result → ∃ again, encodeFrames result = .ok again) ∧
    ∀ problem, decodeFrames input = .error problem → problem.IsError :=
  ⟨decodeFrames_encodeFrames made encoded, decodeFrames_keeps input⟩

theorem roundTrip_of_stream : decodeFrames [0x00, 0x00, 0x0f, 0x04, 0x05, 0x02, 0x61, 0x62] =
    .ok [.padding 2, .stream 4 5 [0x61, 0x62] true] := by
  have encoded : encodeFrames [.padding 1, .padding 1, .stream 4 5 [0x61, 0x62] true] =
      .ok [0x00, 0x00, 0x0f, 0x04, 0x05, 0x02, 0x61, 0x62] := by decide
  have limits : ∀ frame ∈ [Frame.padding 1, .padding 1, .stream 4 5 [0x61, 0x62] true],
      frame.Decodable := by
    simp [Frame.Decodable, maxInt]
  exact (frames_roundTrip_iff (by simp [Frame.Made]) encoded []).1.mpr
    (findable_of_length encoded (by decide) limits)

/-- A RESET_STREAM_AT that promises more than the final size is written but not read. -/
theorem roundTrip_fails_of_reliableSize :
    ¬ ∀ (frames : List Frame) (payload : Bytes), (∀ frame ∈ frames, frame.Made) →
      encodeFrames frames = .ok payload → decodeFrames payload = .ok (mergePaddings frames) := by
  intro roundTrip
  have read := roundTrip [.resetStreamAt 0 0 3 5] [0x24, 0x00, 0x00, 0x03, 0x05]
    (by simp [Frame.Made]) (by decide)
  revert read
  decide

end SwStack.Quic
