import SwStack.Quic.FrameCodec

/-! What the frame codec gives back. Every encoded frame is decoded at its place, apart from
limits that only the decoder knows and fields too far into the payload for its casts. -/
namespace SwStack.Quic

open SwStack.Lib SwStack.Types List

variable {values : List Nat} {bytes : Bytes}

theorem appendVarInts_cons (encoded : appendVarInts (value :: values) = .ok bytes) :
    ∃ first rest, encodeVarInt value = .ok first ∧ appendVarInts values = .ok rest ∧
      bytes = first ++ rest := by
  rw [appendVarInts] at encoded
  cases first : encodeVarInt value with
  | error message =>
    rw [first] at encoded
    cases encoded
  | ok head =>
    cases rest : appendVarInts values with
    | error message =>
      rw [first, rest] at encoded
      cases encoded
    | ok more =>
      rw [first, rest] at encoded
      cases encoded
      exact ⟨head, more, rfl, rfl, rfl⟩

theorem appendVarInts_total (fit : ∀ value ∈ values, value ≤ maxVarInt) :
    ∃ bytes, appendVarInts values = .ok bytes := by
  induction values with
  | nil => exact ⟨[], rfl⟩
  | cons value values ih =>
    obtain ⟨first, encoded⟩ := encodeVarInt_total (fit value mem_cons_self)
    obtain ⟨rest, more⟩ := ih fun other member => fit other (mem_cons_of_mem _ member)
    refine ⟨first ++ rest, ?_⟩
    rw [appendVarInts, encoded, more]
    rfl

/-- Where a read at a position starts, once the position is cast. -/
def castPosition (position : Nat) : Nat := sanitizePosition (toInt position) position

/-- A field of the last `length` bytes written, as the decoder takes it from the payload. -/
def reslice (written : Bytes) (length : Nat) : Except DecodeFailure Bytes :=
  if maxInt < length then .error (.error "QUIC frame field is too large for SwByteArray slicing")
  else .ok ((written.drop (castPosition (written.length - length))).take length)

theorem sanitizePosition_inside (inside : position ≤ limit) :
    sanitizePosition (toInt position) limit = castPosition position := by
  have before := sanitizePosition_toInt position limit
  have same := sanitizePosition_toInt position position
  unfold castPosition
  unfold sanitizePosition at *
  split
  · rfl
  · rename_i positive
    rw [if_neg positive] at before same
    omega

theorem mid_between (before field after : Bytes) (small : field.length ≤ maxInt) :
    mid (before ++ (field ++ after)) (toInt before.length) (toInt field.length) =
      some (((before ++ field).drop (castPosition before.length)).take field.length) := by
  have length : (before ++ (field ++ after)).length =
      before.length + (field.length + after.length) := by simp
  rw [mid_toInt (by omega) small, sanitizePosition_inside (by omega)]
  have near : castPosition before.length ≤ before.length := sanitizePosition_toInt _ _
  have inside : castPosition before.length ≤ (before ++ field).length := by
    rw [length_append]
    omega
  have enough : field.length ≤ ((before ++ field).drop (castPosition before.length)).length := by
    rw [length_drop, length_append]
    omega
  rw [← append_assoc, drop_append_of_le_length inside,
    take_append_of_le_length enough]

theorem readSlice_yields (before field : Bytes) :
    (readSlice field.length).Yields before field (reslice (before ++ field) field.length) := by
  intro after
  have length : (before ++ (field ++ after)).length =
      before.length + (field.length + after.length) := by simp
  have position : (before ++ field).length - field.length = before.length := by simp
  unfold readSlice reslice
  by_cases large : maxInt < field.length
  · rw [if_pos large, if_pos large]
    rfl
  rw [if_neg large, if_neg large, length, if_neg (by omega), mid_between _ _ _ (by omega),
    position]
  simp [Except.map]

theorem readByte_yields (before : Bytes) (byte : UInt8) :
    readByte.Yields before [byte] (.ok byte) := by
  intro after
  unfold readByte
  simp [Except.map]

variable {α : Type} {before : Bytes}

theorem yields_varInt {next : Nat → Decoder α} {value : Nat}
    {tail : Bytes} {outcome : Except DecodeFailure α}
    (encoded : appendVarInts (value :: values) = .ok bytes)
    (rest : ∀ first more, bytes = first ++ more → appendVarInts values = .ok more →
      (next value).Yields (before ++ first) (more ++ tail) outcome) :
    (decodeVarInt >>= next).Yields before (bytes ++ tail) outcome := by
  obtain ⟨first, more, here, later, rfl⟩ := appendVarInts_cons encoded
  rw [append_assoc]
  exact (decodeVarInt_yields here).bind (rest first more rfl later)

theorem yields_lastVarInt {next : Nat → Decoder α} {value : Nat}
    {tail : Bytes} {outcome : Except DecodeFailure α}
    (encoded : appendVarInts [value] = .ok bytes)
    (rest : (next value).Yields (before ++ bytes) tail outcome) :
    (decodeVarInt >>= next).Yields before (bytes ++ tail) outcome := by
  refine yields_varInt encoded fun first more same ended => ?_
  cases ended
  rw [append_nil] at same
  rw [← same]
  exact rest

theorem yields_field (frame : Bytes → α) (before field : Bytes) :
    (readSlice field.length >>= fun data => pure (frame data)).Yields before field
      ((reslice (before ++ field) field.length).map frame) :=
  (readSlice_yields before field).bind_pure frame

/-- What the decoder makes of an encoded frame, `written` being the payload up to its end. -/
def Frame.reread (written : Bytes) : Frame → Except DecodeFailure Frame
  | .ack largestAcknowledged ackDelay firstAckRange ackRanges ecn =>
    if 8192 < ackRanges.length then
      .error (.error "QUIC ACK frame has too many ranges for this decoder")
    else .ok (.ack largestAcknowledged ackDelay firstAckRange ackRanges ecn)
  | .resetStreamAt streamId errorCode finalSize reliableSize =>
    if finalSize < reliableSize then
      .error (.error "RESET_STREAM_AT reliable size exceeds final size")
    else .ok (.resetStreamAt streamId errorCode finalSize reliableSize)
  | .newConnectionId sequenceNumber retirePriorTo connectionId token =>
    if sequenceNumber < retirePriorTo then
      .error (.error "QUIC NEW_CONNECTION_ID retires a future sequence number")
    else (reslice (written.take (written.length - token.length)) connectionId.length).bind
      fun connectionId => (reslice written token.length).map
        (.newConnectionId sequenceNumber retirePriorTo connectionId)
  | .crypto offset data => (reslice written data.length).map (.crypto offset)
  | .newToken data => (reslice written data.length).map .newToken
  | .stream streamId offset data fin =>
    (reslice written data.length).map fun data => .stream streamId offset data fin
  | .pathChallenge data => (reslice written data.length).map .pathChallenge
  | .pathResponse data => (reslice written data.length).map .pathResponse
  | .connectionClose applicationClose errorCode errorFrameType reasonPhrase =>
    (reslice written reasonPhrase.length).map
      (.connectionClose applicationClose errorCode errorFrameType)
  | .datagram data => (reslice written data.length).map .datagram
  | frame => .ok frame

/-- What the factories of frames guarantee. -/
def Frame.Made : Frame → Prop
  | .padding length => 0 < length
  | .connectionClose applicationClose _ errorFrameType _ =>
    applicationClose = true → errorFrameType = 0
  | _ => True

theorem ok_of_bind {β : Type} {first : Except String α} {next : α → Except String β} {result : β}
    (ran : (first >>= next) = .ok result) :
    ∃ value, first = .ok value ∧ next value = .ok result := by
  cases first with
  | error message => cases ran
  | ok value => exact ⟨value, rfl, ran⟩

theorem frame_yields (decoder : Decoder Frame) {rest : Bytes} {kind : UInt8}
    {outcome : Except DecodeFailure Frame} (chosen : decodeBody kind = decoder)
    (body : decoder.Yields (before ++ [kind]) rest outcome) :
    decodeFrame.Yields before (kind :: rest) outcome := by
  subst chosen
  exact (readByte_yields before kind).bind body

variable {header : Bytes}

theorem decodeLimit_yields {maximum : Nat} (frame : Nat → Frame)
    (encoded : appendVarInts [maximum] = .ok header) :
    (decodeLimit frame).Yields before header (.ok (frame maximum)) := by
  rw [← append_nil header]
  exact yields_lastVarInt encoded (.pure _)

theorem decodeStreamLimit_yields {streamId maximum : Nat}
    (frame : Nat → Nat → Frame) (encoded : appendVarInts [streamId, maximum] = .ok header) :
    (decodeStreamLimit frame).Yields before header (.ok (frame streamId maximum)) := by
  rw [← append_nil header]
  exact yields_varInt encoded fun _ _ _ more => yields_lastVarInt more (.pure _)

theorem readAckRange_yields {range : AckRange}
    (encoded : appendVarInts [range.gap, range.rangeLength] = .ok bytes) :
    readAckRange.Yields before bytes (.ok range) := by
  rw [← append_nil bytes]
  exact yields_varInt encoded fun _ _ _ more => yields_lastVarInt more (.pure _)

theorem readAckRanges_yields {ackRanges : List AckRange}
    (encoded : appendVarInts (ackRanges.flatMap fun range => [range.gap, range.rangeLength]) =
      .ok bytes) : (readAckRange.times ackRanges.length).Yields before bytes (.ok ackRanges) := by
  induction ackRanges generalizing before bytes with
  | nil =>
    cases encoded
    exact .pure []
  | cons range rest ih =>
    obtain ⟨gap, tail, gapped, tailed, rfl⟩ := appendVarInts_cons encoded
    obtain ⟨length, more, lengthed, others, rfl⟩ := appendVarInts_cons tailed
    have first : readAckRange.Yields before (gap ++ length) (.ok range) := by
      refine readAckRange_yields ?_
      rw [appendVarInts, appendVarInts, gapped, lengthed, appendVarInts]
      exact congrArg Except.ok (by simp)
    rw [← append_assoc]
    exact first.bind ((ih others).bind_pure (range :: ·))

theorem readEcnCounts_yields {counts : EcnCounts}
    (encoded : appendVarInts [counts.ect0, counts.ect1, counts.ecnCe] = .ok bytes) :
    (readEcnCounts true).Yields before bytes (.ok (some counts)) := by
  rw [← append_nil bytes]
  exact yields_varInt encoded fun _ _ _ more => yields_varInt more fun _ _ _ more =>
    yields_lastVarInt more (.pure _)

theorem streamType_cases (offset : Nat) (fin : Bool) :
    streamType offset fin = 0x0a ∨ streamType offset fin = 0x0b ∨
      streamType offset fin = 0x0e ∨ streamType offset fin = 0x0f := by
  unfold streamType
  split <;> cases fin <;> decide

theorem decodeStream_yields {data : Bytes} {streamId offset : Nat} {fin : Bool}
    (encoded : appendVarInts
      (streamId :: ((if 0 < offset then [offset] else []) ++ [data.length])) = .ok header) :
    (decodeStream (streamType offset fin)).Yields before (header ++ data)
      ((Frame.stream streamId offset data fin).reread (before ++ (header ++ data))) := by
  have finBit : decide (streamType offset fin &&& 0x01 ≠ 0) = fin := by
    unfold streamType
    split <;> cases fin <;> decide
  have lengthBit : decide (streamType offset fin &&& 0x02 ≠ 0) = true := by
    unfold streamType
    split <;> cases fin <;> decide
  have offsetBit : decide (streamType offset fin &&& 0x04 ≠ 0) = decide (0 < offset) := by
    unfold streamType
    split
    · rename_i positive
      rw [decide_eq_true positive]
      cases fin <;> decide
    · rename_i zero
      rw [decide_eq_false zero]
      cases fin <;> decide
  unfold decodeStream
  rw [finBit, lengthBit, offsetBit]
  by_cases positive : 0 < offset
  · rw [if_pos positive] at encoded
    rw [decide_eq_true positive]
    refine yields_varInt encoded fun first more whole found => ?_
    refine yields_varInt found fun second last rest final => yields_lastVarInt final ?_
    rw [Frame.reread, show before ++ (header ++ data) = before ++ first ++ second ++ last ++ data by
      simp [whole, rest]]
    exact yields_field _ _ _
  · have zero : offset = 0 := by omega
    rw [if_neg positive] at encoded
    rw [decide_eq_false positive]
    refine yields_varInt encoded fun first last whole final => ?_
    change (decodeVarInt >>= fun length => readSlice length >>= fun data =>
      pure (Frame.stream streamId 0 data fin)).Yields _ _ _
    refine yields_lastVarInt final ?_
    rw [Frame.reread, zero, show before ++ (header ++ data) = before ++ first ++ last ++ data by
      simp [whole]]
    exact yields_field _ _ _

theorem decodeAck_yields (ecn : Option EcnCounts) {head ranges counts : Bytes}
    {largestAcknowledged ackDelay firstAckRange : Nat} {ackRanges : List AckRange}
    (headed : appendVarInts [largestAcknowledged, ackDelay, ackRanges.length, firstAckRange] =
      .ok head)
    (ranged : appendVarInts (ackRanges.flatMap fun range => [range.gap, range.rangeLength]) =
      .ok ranges)
    (counted : appendEcnCounts ecn = .ok counts) (written : Bytes) :
    (decodeAck ecn.isSome).Yields before (head ++ (ranges ++ counts))
      ((Frame.ack largestAcknowledged ackDelay firstAckRange ackRanges ecn).reread written) := by
  refine yields_varInt headed fun _ _ _ more => yields_varInt more fun _ _ _ more =>
    yields_varInt more fun _ _ _ more => yields_lastVarInt more ?_
  rw [Frame.reread]
  split
  · exact .fail _
  · refine (readAckRanges_yields ranged).bind ?_
    cases ecn with
    | none =>
      cases counted
      exact .pure _
    | some numbers =>
      rw [← append_nil counts]
      exact (readEcnCounts_yields counted).bind (.pure _)

theorem decodeConnectionClose_yields {reason : Bytes} {applicationClose : Bool}
    {errorCode errorFrameType : Nat} (made : applicationClose = true → errorFrameType = 0)
    (encoded : appendVarInts
      (errorCode :: ((if applicationClose then [] else [errorFrameType]) ++ [reason.length])) =
        .ok header) :
    (decodeConnectionClose applicationClose).Yields before (header ++ reason)
      ((Frame.connectionClose applicationClose errorCode errorFrameType reason).reread
        (before ++ (header ++ reason))) := by
  unfold decodeConnectionClose
  cases applicationClose with
  | true =>
    rw [made rfl]
    refine yields_varInt encoded fun first last whole final => ?_
    change (decodeVarInt >>= fun length => readSlice length >>= fun data =>
      pure (Frame.connectionClose true errorCode 0 data)).Yields _ _ _
    refine yields_lastVarInt final ?_
    rw [Frame.reread, show before ++ (header ++ reason) = before ++ first ++ last ++ reason by
      simp [whole]]
    exact yields_field _ _ _
  | false =>
    refine yields_varInt encoded fun first more whole found => ?_
    refine yields_varInt found fun second last rest final => yields_lastVarInt final ?_
    rw [Frame.reread, show before ++ (header ++ reason) =
      before ++ first ++ second ++ last ++ reason by simp [whole, rest]]
    exact yields_field _ _ _

theorem decodeNewConnectionId_yields {connectionId token : Bytes}
    {sequenceNumber retirePriorTo : Nat} (positive : 1 ≤ connectionId.length)
    (short : connectionId.length ≤ 20) (sixteen : token.length = 16)
    (encoded : appendVarInts [sequenceNumber, retirePriorTo] = .ok header) :
    decodeNewConnectionId.Yields before
      (header ++ UInt8.ofNat connectionId.length :: (connectionId ++ token))
      ((Frame.newConnectionId sequenceNumber retirePriorTo connectionId token).reread
        (before ++ (header ++ UInt8.ofNat connectionId.length :: (connectionId ++ token)))) := by
  have count : (UInt8.ofNat connectionId.length).toNat = connectionId.length :=
    UInt8.toNat_ofNat_of_lt' (lt_of_le_of_lt short (by decide))
  have valid : ¬ (UInt8.ofNat connectionId.length < 1 ∨ 20 < UInt8.ofNat connectionId.length) := by
    simp only [UInt8.lt_iff_toNat_lt, count, not_or, not_lt]
    exact ⟨positive, short⟩
  refine yields_varInt encoded fun first last whole final => yields_lastVarInt final ?_
  rw [Frame.reread]
  split
  · exact .fail _
  refine Cursor.Yields.bind (readByte_yields _ (UInt8.ofNat connectionId.length)) ?_
  rw [if_neg valid, count]
  have written : before ++ (header ++ UInt8.ofNat connectionId.length :: (connectionId ++ token)) =
      before ++ first ++ last ++ [UInt8.ofNat connectionId.length] ++ connectionId ++ token := by
    simp [whole]
  have identified (bytes : Bytes) : (bytes ++ token).take ((bytes ++ token).length - token.length) =
      bytes := by simp
  rw [written, identified]
  cases found : reslice (before ++ first ++ last ++ [UInt8.ofNat connectionId.length] ++
      connectionId) connectionId.length with
  | error problem => exact (found ▸ readSlice_yields _ connectionId).bind_error
  | ok identifier =>
    refine (found ▸ readSlice_yields _ connectionId).bind ?_
    rw [← sixteen]
    exact yields_field _ _ _

variable {frame : Frame}

/-- Every encoded frame but PADDING is decoded from its own bytes. -/
theorem decodeFrame_yields (made : frame.Made)
    (visible : ∀ length, frame ≠ .padding length) (encoded : encodeFrame frame = .ok bytes) :
    decodeFrame.Yields before bytes (frame.reread (before ++ bytes)) := by
  have cons (kind : UInt8) (rest : Bytes) : before ++ kind :: rest = before ++ [kind] ++ rest := by
    simp
  cases frame with
  | padding length => exact absurd rfl (visible length)
  | ping =>
    cases encoded
    exact frame_yields (pure _) (by simp [decodeBody]) (.pure _)
  | handshakeDone =>
    cases encoded
    exact frame_yields (pure _) (by simp [decodeBody]) (.pure _)
  | ack largestAcknowledged ackDelay firstAckRange ackRanges ecn =>
    obtain ⟨head, headed, encoded⟩ := ok_of_bind encoded
    obtain ⟨ranges, ranged, encoded⟩ := ok_of_bind encoded
    obtain ⟨counts, counted, encoded⟩ := ok_of_bind encoded
    cases encoded
    cases ecn with
    | none =>
      change decodeFrame.Yields before (0x02 :: (head ++ (ranges ++ counts))) _
      exact frame_yields (decodeAck false) (by simp [decodeBody])
        (decodeAck_yields none headed ranged counted _)
    | some numbers =>
      change decodeFrame.Yields before (0x03 :: (head ++ (ranges ++ counts))) _
      exact frame_yields (decodeAck true) (by simp [decodeBody])
        (decodeAck_yields (some numbers) headed ranged counted _)
  | resetStream streamId errorCode finalSize =>
    obtain ⟨header, headed, encoded⟩ := ok_of_bind encoded
    cases encoded
    refine frame_yields decodeResetStream (by simp [decodeBody]) ?_
    rw [← append_nil header]
    exact yields_varInt headed fun _ _ _ more => yields_varInt more fun _ _ _ more =>
      yields_lastVarInt more (.pure _)
  | resetStreamAt streamId errorCode finalSize reliableSize =>
    obtain ⟨header, headed, encoded⟩ := ok_of_bind encoded
    cases encoded
    refine frame_yields decodeResetStreamAt (by simp [decodeBody]) ?_
    rw [← append_nil header]
    refine yields_varInt headed fun _ _ _ more => yields_varInt more fun _ _ _ more =>
      yields_varInt more fun _ _ _ more => yields_lastVarInt more ?_
    rw [Frame.reread]
    split
    · exact .fail _
    · exact .pure _
  | stopSending streamId errorCode =>
    obtain ⟨header, headed, encoded⟩ := ok_of_bind encoded
    cases encoded
    refine frame_yields decodeStopSending (by simp [decodeBody]) ?_
    rw [← append_nil header]
    exact yields_varInt headed fun _ _ _ more => yields_lastVarInt more (.pure _)
  | crypto offset data =>
    obtain ⟨header, headed, encoded⟩ := ok_of_bind encoded
    cases encoded
    refine frame_yields decodeCrypto (by simp [decodeBody]) ?_
    refine yields_varInt headed fun first last whole final => yields_lastVarInt final ?_
    rw [Frame.reread, show before ++ 0x06 :: (header ++ data) =
      before ++ [0x06] ++ first ++ last ++ data by simp [whole]]
    exact yields_field _ _ _
  | newToken data =>
    obtain ⟨header, headed, encoded⟩ := ok_of_bind encoded
    cases encoded
    refine frame_yields decodeNewToken (by simp [decodeBody]) (yields_lastVarInt headed ?_)
    rw [Frame.reread, show before ++ 0x07 :: (header ++ data) =
      before ++ [0x07] ++ header ++ data by simp]
    exact yields_field _ _ _
  | stream streamId offset data fin =>
    obtain ⟨header, headed, encoded⟩ := ok_of_bind encoded
    cases encoded
    have stream : decodeBody (streamType offset fin) = decodeStream (streamType offset fin) := by
      rcases streamType_cases offset fin with kind | kind | kind | kind <;>
        simp [kind, decodeBody]
    refine frame_yields _ stream ?_
    rw [cons _ (header ++ data)]
    exact decodeStream_yields headed
  | maxData maximum =>
    obtain ⟨header, headed, encoded⟩ := ok_of_bind encoded
    cases encoded
    exact frame_yields decodeMaxData (by simp [decodeBody]) (decodeLimit_yields .maxData headed)
  | maxStreamData streamId maximum =>
    obtain ⟨header, headed, encoded⟩ := ok_of_bind encoded
    cases encoded
    exact frame_yields decodeMaxStreamData (by simp [decodeBody])
      (decodeStreamLimit_yields .maxStreamData headed)
  | maxStreams bidirectional maximum =>
    obtain ⟨header, headed, encoded⟩ := ok_of_bind encoded
    cases encoded
    cases bidirectional with
    | true =>
      exact frame_yields (decodeMaxStreams true) (by simp [decodeBody])
        (decodeLimit_yields (.maxStreams true) headed)
    | false =>
      exact frame_yields (decodeMaxStreams false) (by simp [decodeBody])
        (decodeLimit_yields (.maxStreams false) headed)
  | dataBlocked maximum =>
    obtain ⟨header, headed, encoded⟩ := ok_of_bind encoded
    cases encoded
    exact frame_yields decodeDataBlocked (by simp [decodeBody])
      (decodeLimit_yields .dataBlocked headed)
  | streamDataBlocked streamId maximum =>
    obtain ⟨header, headed, encoded⟩ := ok_of_bind encoded
    cases encoded
    exact frame_yields decodeStreamDataBlocked (by simp [decodeBody])
      (decodeStreamLimit_yields .streamDataBlocked headed)
  | streamsBlocked bidirectional maximum =>
    obtain ⟨header, headed, encoded⟩ := ok_of_bind encoded
    cases encoded
    cases bidirectional with
    | true =>
      exact frame_yields (decodeStreamsBlocked true) (by simp [decodeBody])
        (decodeLimit_yields (.streamsBlocked true) headed)
    | false =>
      exact frame_yields (decodeStreamsBlocked false) (by simp [decodeBody])
        (decodeLimit_yields (.streamsBlocked false) headed)
  | newConnectionId sequenceNumber retirePriorTo connectionId token =>
    rw [encodeFrame] at encoded
    split at encoded
    · cases encoded
    split at encoded
    · cases encoded
    rename_i valid sixteen
    obtain ⟨header, headed, encoded⟩ := ok_of_bind encoded
    cases encoded
    refine frame_yields decodeNewConnectionId (by simp [decodeBody]) ?_
    rw [cons _ (header ++ _)]
    exact decodeNewConnectionId_yields (by omega) (by omega) (by omega) headed
  | retireConnectionId sequenceNumber =>
    obtain ⟨header, headed, encoded⟩ := ok_of_bind encoded
    cases encoded
    exact frame_yields decodeRetireConnectionId (by simp [decodeBody])
      (decodeLimit_yields .retireConnectionId headed)
  | pathChallenge data =>
    rw [encodeFrame] at encoded
    split at encoded
    · cases encoded
    rename_i eight
    cases encoded
    refine frame_yields (decodePathData false) (by simp [decodeBody]) ?_
    rw [Frame.reread, cons _ data]
    have field := yields_field Frame.pathChallenge (before ++ [0x1a]) data
    rw [not_not.mp eight] at field ⊢
    exact field
  | pathResponse data =>
    rw [encodeFrame] at encoded
    split at encoded
    · cases encoded
    rename_i eight
    cases encoded
    refine frame_yields (decodePathData true) (by simp [decodeBody]) ?_
    rw [Frame.reread, cons _ data]
    have field := yields_field Frame.pathResponse (before ++ [0x1b]) data
    rw [not_not.mp eight] at field ⊢
    exact field
  | connectionClose applicationClose errorCode errorFrameType reasonPhrase =>
    obtain ⟨header, headed, encoded⟩ := ok_of_bind encoded
    cases encoded
    rw [cons _ (header ++ reasonPhrase)]
    cases applicationClose with
    | true =>
      exact frame_yields (decodeConnectionClose true) (by simp [decodeBody])
        (decodeConnectionClose_yields made headed)
    | false =>
      exact frame_yields (decodeConnectionClose false) (by simp [decodeBody])
        (decodeConnectionClose_yields made headed)
  | datagram data =>
    obtain ⟨header, headed, encoded⟩ := ok_of_bind encoded
    cases encoded
    refine frame_yields (decodeDatagram true) (by simp [decodeBody]) ?_
    change (decodeVarInt >>= fun length => readSlice length >>= fun data =>
      pure (Frame.datagram data)).Yields _ _ _
    refine yields_lastVarInt headed ?_
    rw [Frame.reread, show before ++ 0x31 :: (header ++ data) =
      before ++ [0x31] ++ header ++ data by simp]
    exact yields_field _ _ _

/-- The limits that only the decoder checks. -/
def Frame.Decodable : Frame → Prop
  | .ack _ _ _ ackRanges _ => ackRanges.length ≤ 8192
  | .resetStreamAt _ _ finalSize reliableSize => reliableSize ≤ finalSize
  | .newConnectionId sequenceNumber retirePriorTo _ _ => retirePriorTo ≤ sequenceNumber
  | .crypto _ data | .newToken data | .stream _ _ data _ | .connectionClose _ _ _ data
  | .datagram data => data.length ≤ maxInt
  | _ => True

/-- The byte fields of a frame that ends at `size`, each with its position. -/
def Frame.fields (size : Nat) : Frame → List (Nat × Bytes)
  | .crypto _ data | .newToken data | .stream _ _ data _ | .pathChallenge data
  | .pathResponse data | .connectionClose _ _ _ data | .datagram data =>
    [(size - data.length, data)]
  | .newConnectionId _ _ connectionId token =>
    [(size - token.length - connectionId.length, connectionId), (size - token.length, token)]
  | _ => []

/-- A field near enough for the casts, or the same bytes where its cast position points. -/
def FoundIn (written : Bytes) (field : Nat × Bytes) : Prop :=
  field.1 ≤ maxInt ∨ (written.drop (castPosition field.1)).take field.2.length = field.2

theorem reslice_total (written : Bytes) {length : Nat} (small : length ≤ maxInt) :
    ∃ field, reslice written length = .ok field := by
  rw [reslice, if_neg (by omega)]
  exact ⟨_, rfl⟩

theorem foundIn_iff (before field : Bytes) :
    FoundIn (before ++ field) (before.length, field) ↔
      ((before ++ field).drop (castPosition before.length)).take field.length = field := by
  refine ⟨fun found => ?_, .inr⟩
  rcases found with near | same
  · have here : castPosition before.length = before.length := by
      unfold castPosition sanitizePosition
      rw [toInt_of_le near, if_neg (by omega), Int.toNat_natCast, min_self]
    rw [here]
    simp
  · exact same

theorem reslice_iff (before field : Bytes) :
    reslice (before ++ field) field.length = .ok field ↔
      field.length ≤ maxInt ∧ FoundIn (before ++ field) (before.length, field) := by
  have position : (before ++ field).length - field.length = before.length := by simp
  rw [foundIn_iff]
  unfold reslice
  rw [position]
  by_cases large : maxInt < field.length
  · rw [if_pos large]
    constructor
    · intro same
      cases same
    · rintro ⟨small, -⟩
      omega
  · rw [if_neg large, Except.ok.injEq]
    exact ⟨fun same => ⟨by omega, same⟩, And.right⟩

theorem map_eq_ok {β : Type} {result : Except DecodeFailure α} {frame : α → β} {value : α}
    (injective : Function.Injective frame) :
    result.map frame = .ok (frame value) ↔ result = .ok value := by
  cases result with
  | error problem =>
    constructor <;> intro same <;> cases same
  | ok read =>
    rw [Except.ok.injEq]
    change Except.ok (frame read) = .ok (frame value) ↔ _
    rw [Except.ok.injEq, injective.eq_iff]

theorem reread_field {before field : Bytes} {frame : Bytes → Frame}
    (injective : Function.Injective frame) :
    (reslice (before ++ field) field.length).map frame = .ok (frame field) ↔
      field.length ≤ maxInt ∧
        ∀ found ∈ [((before ++ field).length - field.length, field)],
          FoundIn (before ++ field) found := by
  have position : (before ++ field).length - field.length = before.length := by simp
  rw [map_eq_ok injective, reslice_iff, position]
  simp

theorem foundIn_append (before field after : Bytes) :
    FoundIn (before ++ field ++ after) (before.length, field) ↔
      FoundIn (before ++ field) (before.length, field) := by
  have near : castPosition before.length ≤ before.length := sanitizePosition_toInt _ _
  have inside : castPosition before.length ≤ (before ++ field).length := by
    rw [length_append]
    omega
  have enough : field.length ≤ ((before ++ field).drop (castPosition before.length)).length := by
    rw [length_drop, length_append]
    omega
  unfold FoundIn
  rw [drop_append_of_le_length inside, take_append_of_le_length enough]

theorem reread_newConnectionId (before : Bytes) {sequenceNumber retirePriorTo : Nat}
    {connectionId token : Bytes} (short : connectionId.length ≤ maxInt)
    (small : token.length ≤ maxInt) :
    (Frame.newConnectionId sequenceNumber retirePriorTo connectionId token).reread
        (before ++ connectionId ++ token) =
        .ok (.newConnectionId sequenceNumber retirePriorTo connectionId token) ↔
      retirePriorTo ≤ sequenceNumber ∧
        ∀ field ∈ (Frame.newConnectionId sequenceNumber retirePriorTo connectionId token).fields
          (before ++ connectionId ++ token).length,
          FoundIn (before ++ connectionId ++ token) field := by
  have position : (before ++ connectionId ++ token).length - token.length =
      (before ++ connectionId).length := by
    rw [length_append, Nat.add_sub_cancel]
  have identifier : (before ++ connectionId).length - connectionId.length = before.length := by
    rw [length_append, Nat.add_sub_cancel]
  have identified := reslice_iff before connectionId
  have authenticated := reslice_iff (before ++ connectionId) token
  obtain ⟨readId, idRead⟩ := reslice_total (before ++ connectionId) short
  obtain ⟨readToken, tokenRead⟩ := reslice_total (before ++ connectionId ++ token) small
  rw [idRead, Except.ok.injEq] at identified
  rw [tokenRead, Except.ok.injEq] at authenticated
  simp only [Frame.reread, Frame.fields, position, identifier, take_left]
  split
  · simp
    omega
  · rename_i later
    rw [idRead]
    dsimp only [Except.bind]
    rw [tokenRead]
    dsimp only [Except.map]
    simp only [Except.ok.injEq, Frame.newConnectionId.injEq, true_and, forall_mem_cons,
      not_mem_nil, false_implies, implies_true, and_true, foundIn_append]
    rw [identified, authenticated]
    exact ⟨fun found => ⟨by omega, found.1.2, found.2.2⟩,
      fun found => ⟨⟨short, found.2.1⟩, small, found.2.2⟩⟩

theorem encodeFrame_fields (encoded : encodeFrame frame = .ok bytes) (before : Bytes) :
    frame.reread (before ++ bytes) = .ok frame ↔
      frame.Decodable ∧ ∀ field ∈ frame.fields (before ++ bytes).length,
        FoundIn (before ++ bytes) field := by
  cases frame with
  | crypto offset data =>
    obtain ⟨header, headed, encoded⟩ := ok_of_bind encoded
    cases encoded
    rw [Frame.reread, Frame.fields, show before ++ 0x06 :: (header ++ data) =
      before ++ 0x06 :: header ++ data by simp]
    exact reread_field fun _ _ same => by injection same
  | newToken data =>
    obtain ⟨header, headed, encoded⟩ := ok_of_bind encoded
    cases encoded
    rw [Frame.reread, Frame.fields, show before ++ 0x07 :: (header ++ data) =
      before ++ 0x07 :: header ++ data by simp]
    exact reread_field fun _ _ same => by injection same
  | stream streamId offset data fin =>
    obtain ⟨header, headed, encoded⟩ := ok_of_bind encoded
    cases encoded
    rw [Frame.reread, Frame.fields, show before ++ streamType offset fin :: (header ++ data) =
      before ++ streamType offset fin :: header ++ data by simp]
    exact @reread_field _ _ (fun data => .stream streamId offset data fin)
      fun _ _ same => by injection same
  | connectionClose applicationClose errorCode errorFrameType reasonPhrase =>
    obtain ⟨header, headed, encoded⟩ := ok_of_bind encoded
    cases encoded
    rw [Frame.reread, Frame.fields, show before ++ (if applicationClose then 0x1d else 0x1c) ::
      (header ++ reasonPhrase) = before ++ (if applicationClose then 0x1d else 0x1c) :: header ++
        reasonPhrase by simp]
    exact reread_field fun _ _ same => by injection same
  | datagram data =>
    obtain ⟨header, headed, encoded⟩ := ok_of_bind encoded
    cases encoded
    rw [Frame.reread, Frame.fields, show before ++ 0x31 :: (header ++ data) =
      before ++ 0x31 :: header ++ data by simp]
    exact reread_field fun _ _ same => by injection same
  | pathChallenge data =>
    rw [encodeFrame] at encoded
    split at encoded
    · cases encoded
    rename_i eight
    cases encoded
    rw [Frame.reread, Frame.fields, show before ++ 0x1a :: data = before ++ [0x1a] ++ data by simp,
      reread_field fun _ _ same => by injection same, not_not.mp eight]
    exact and_congr_left fun _ => iff_of_true (by decide) trivial
  | pathResponse data =>
    rw [encodeFrame] at encoded
    split at encoded
    · cases encoded
    rename_i eight
    cases encoded
    rw [Frame.reread, Frame.fields, show before ++ 0x1b :: data = before ++ [0x1b] ++ data by simp,
      reread_field fun _ _ same => by injection same, not_not.mp eight]
    exact and_congr_left fun _ => iff_of_true (by decide) trivial
  | ack largestAcknowledged ackDelay firstAckRange ackRanges ecn =>
    simp only [Frame.reread, Frame.fields, Frame.Decodable]
    split
    · simp
      omega
    · simp
      omega
  | resetStreamAt streamId errorCode finalSize reliableSize =>
    simp only [Frame.reread, Frame.fields, Frame.Decodable]
    split
    · simp
      omega
    · simp
      omega
  | newConnectionId sequenceNumber retirePriorTo connectionId token =>
    rw [encodeFrame] at encoded
    split at encoded
    · cases encoded
    split at encoded
    · cases encoded
    rename_i valid sixteen
    obtain ⟨header, headed, encoded⟩ := ok_of_bind encoded
    cases encoded
    rw [show before ++ 0x18 :: (header ++
      UInt8.ofNat connectionId.length :: (connectionId ++ token)) =
      before ++ 0x18 :: (header ++ [UInt8.ofNat connectionId.length]) ++ connectionId ++ token
      by simp]
    have bound : maxInt = 2147483647 := rfl
    exact reread_newConnectionId _ (by omega) (by omega)
  | _ => simp [Frame.reread, Frame.fields, Frame.Decodable]

variable {frames : List Frame} {payload : Bytes}

theorem encodeFrames_cons (encoded : encodeFrames (frame :: frames) = .ok payload) :
    ∃ bytes rest, encodeFrame frame = .ok bytes ∧ encodeFrames frames = .ok rest ∧
      payload = bytes ++ rest := by
  obtain ⟨bytes, here, encoded⟩ := ok_of_bind encoded
  obtain ⟨rest, later, encoded⟩ := ok_of_bind encoded
  cases encoded
  exact ⟨bytes, rest, here, later, rfl⟩

/-- Adjacent PADDING frames become one. -/
def mergePaddings : List Frame → List Frame
  | [] => []
  | .padding length :: rest =>
    match mergePaddings rest with
    | .padding more :: merged => .padding (length + more) :: merged
    | merged => .padding length :: merged
  | frame :: rest => frame :: mergePaddings rest

def startsPadding : List Frame → Bool
  | .padding _ :: _ => true
  | _ => false

/-- No PADDING frame follows another. -/
def Apart : List Frame → Prop
  | [] => True
  | .padding _ :: rest => startsPadding rest = false ∧ Apart rest
  | _ :: rest => Apart rest

theorem mergePaddings_apart (frames : List Frame) : Apart (mergePaddings frames) := by
  induction frames with
  | nil => trivial
  | cons frame rest ih =>
    cases frame with
    | padding length =>
      rw [mergePaddings]
      split
      · rename_i merged found
        rw [found] at ih
        exact ih
      · rename_i different
        refine ⟨?_, ih⟩
        cases merged : mergePaddings rest with
        | nil => rfl
        | cons next more =>
          cases next with
          | padding length => exact absurd merged (different length more)
          | _ => rfl
    | _ => exact ih

theorem encodeFrames_mergePaddings (encoded : encodeFrames frames = .ok payload) :
    encodeFrames (mergePaddings frames) = .ok payload := by
  induction frames generalizing payload with
  | nil => exact encoded
  | cons frame rest ih =>
    obtain ⟨bytes, more, here, later, rfl⟩ := encodeFrames_cons encoded
    have merged := ih later
    have kept : encodeFrames (frame :: mergePaddings rest) = .ok (bytes ++ more) := by
      rw [encodeFrames, here, merged]
      rfl
    cases frame with
    | padding length =>
      cases here
      rw [mergePaddings]
      split
      · rename_i other after found
        rw [found] at merged
        obtain ⟨run, others, first, following, rfl⟩ := encodeFrames_cons merged
        cases first
        rw [encodeFrames, encodeFrame, following]
        exact congrArg Except.ok (by simp [← replicate_append_replicate])
      · exact kept
    | _ => exact kept

theorem mergePaddings_made (made : ∀ frame ∈ frames, frame.Made) :
    ∀ frame ∈ mergePaddings frames, frame.Made := by
  induction frames with
  | nil => exact made
  | cons frame rest ih =>
    have later := ih fun other member => made other (mem_cons_of_mem _ member)
    have here := made frame mem_cons_self
    have kept : ∀ other ∈ frame :: mergePaddings rest, other.Made := by
      intro other member
      rcases mem_cons.mp member with rfl | member
      · exact here
      · exact later other member
    cases frame with
    | padding length =>
      rw [mergePaddings]
      split
      · rename_i other after found
        rw [found] at later
        intro frame member
        rcases mem_cons.mp member with rfl | member
        · exact Nat.add_pos_left here _
        · exact later frame (mem_cons_of_mem _ member)
      · exact kept
    | _ => exact kept

theorem encodeFrame_visible
    (visible : ∀ length, frame ≠ .padding length) (encoded : encodeFrame frame = .ok bytes) :
    ∃ kind rest, bytes = kind :: rest ∧ kind ≠ 0 := by
  cases frame with
  | padding length => exact absurd rfl (visible length)
  | ping =>
    cases encoded
    exact ⟨_, _, rfl, by decide⟩
  | handshakeDone =>
    cases encoded
    exact ⟨_, _, rfl, by decide⟩
  | ack largestAcknowledged ackDelay firstAckRange ackRanges ecn =>
    obtain ⟨head, headed, encoded⟩ := ok_of_bind encoded
    obtain ⟨ranges, ranged, encoded⟩ := ok_of_bind encoded
    obtain ⟨counts, counted, encoded⟩ := ok_of_bind encoded
    cases encoded
    exact ⟨_, _, rfl, by cases ecn <;> simp⟩
  | stream streamId offset data fin =>
    obtain ⟨header, headed, encoded⟩ := ok_of_bind encoded
    cases encoded
    refine ⟨_, _, rfl, ?_⟩
    rcases streamType_cases offset fin with kind | kind | kind | kind <;> simp [kind]
  | maxStreams bidirectional maximum =>
    obtain ⟨header, headed, encoded⟩ := ok_of_bind encoded
    cases encoded
    exact ⟨_, _, rfl, by cases bidirectional <;> decide⟩
  | streamsBlocked bidirectional maximum =>
    obtain ⟨header, headed, encoded⟩ := ok_of_bind encoded
    cases encoded
    exact ⟨_, _, rfl, by cases bidirectional <;> decide⟩
  | connectionClose applicationClose errorCode errorFrameType reasonPhrase =>
    obtain ⟨header, headed, encoded⟩ := ok_of_bind encoded
    cases encoded
    exact ⟨_, _, rfl, by cases applicationClose <;> decide⟩
  | newConnectionId sequenceNumber retirePriorTo connectionId token =>
    rw [encodeFrame] at encoded
    split at encoded
    · cases encoded
    split at encoded
    · cases encoded
    obtain ⟨header, headed, encoded⟩ := ok_of_bind encoded
    cases encoded
    exact ⟨_, _, rfl, by decide⟩
  | pathChallenge data =>
    rw [encodeFrame] at encoded
    split at encoded
    · cases encoded
    cases encoded
    exact ⟨_, _, rfl, by decide⟩
  | pathResponse data =>
    rw [encodeFrame] at encoded
    split at encoded
    · cases encoded
    cases encoded
    exact ⟨_, _, rfl, by decide⟩
  | _ =>
    obtain ⟨header, headed, encoded⟩ := ok_of_bind encoded
    cases encoded
    exact ⟨_, _, rfl, by decide⟩

theorem decodeNext_visible (made : frame.Made)
    (visible : ∀ length, frame ≠ .padding length) (encoded : encodeFrame frame = .ok bytes) :
    decodeNext.Yields before bytes (frame.reread (before ++ bytes)) := by
  intro after
  obtain ⟨kind, rest, same, nonzero⟩ := encodeFrame_visible visible encoded
  have here : (before ++ (bytes ++ after))[before.length]? = some kind := by simp [same]
  unfold decodeNext
  rw [here]
  dsimp only
  rw [if_neg nonzero]
  exact decodeFrame_yields made visible encoded after

theorem decodeNext_padding (before after : Bytes) {length : Nat} (positive : 0 < length)
    (ends : after.head? ≠ some 0) :
    decodeNext (before ++ (List.replicate length 0 ++ after)) before.length =
      .ok (.padding length, (before ++ List.replicate length 0).length) := by
  obtain ⟨more, rfl⟩ := Nat.exists_eq_add_of_le' positive
  have here : (before ++ (List.replicate (more + 1) (0 : UInt8) ++ after))[before.length]? =
      some 0 := by simp [replicate_succ]
  have run : (List.replicate (more + 1) (0 : UInt8) ++ after).takeWhile (· = 0) =
      List.replicate (more + 1) 0 := by
    have stop : after.takeWhile (fun byte => decide (byte = 0)) = [] := by
      cases after with
      | nil => rfl
      | cons byte rest =>
        have different : byte ≠ 0 := fun same => ends (by rw [same]; rfl)
        simp [different]
    rw [takeWhile_append_of_pos (by simp), stop, append_nil]
  unfold decodeNext
  rw [here]
  dsimp only
  rw [if_pos rfl, drop_left, run, length_replicate, length_append,
    length_replicate]

/-- Every frame of a list is found where it was written. -/
def Rereads : Bytes → List Frame → Prop
  | _, [] => True
  | before, frame :: rest => ∀ bytes, encodeFrame frame = .ok bytes →
    frame.reread (before ++ bytes) = .ok frame ∧ Rereads (before ++ bytes) rest

theorem rereads_padding (before : Bytes) (length : Nat) (rest : List Frame) :
    Rereads before (.padding length :: rest) ↔ Rereads (before ++ List.replicate length 0) rest := by
  constructor
  · intro rereads
    exact (rereads _ rfl).2
  · intro rereads bytes encoded
    cases encoded
    exact ⟨rfl, rereads⟩

theorem rereads_mergePaddings (before : Bytes) (frames : List Frame) :
    Rereads before (mergePaddings frames) ↔ Rereads before frames := by
  induction frames generalizing before with
  | nil => exact .rfl
  | cons frame rest ih =>
    have kept : Rereads before (frame :: mergePaddings rest) ↔ Rereads before (frame :: rest) := by
      simp only [Rereads, ih]
    cases frame with
    | padding length =>
      rw [mergePaddings]
      split
      · rename_i other after found
        rw [rereads_padding, rereads_padding, ← ih, found, rereads_padding, append_assoc,
          replicate_append_replicate]
      · exact kept
    | _ => exact kept

theorem head_encodeFrames (starts : startsPadding frames = false)
    (encoded : encodeFrames frames = .ok payload) : payload.head? ≠ some 0 := by
  cases frames with
  | nil =>
    cases encoded
    simp
  | cons frame rest =>
    obtain ⟨bytes, more, here, later, rfl⟩ := encodeFrames_cons encoded
    have visible : ∀ length, frame ≠ .padding length := by
      rintro length rfl
      cases starts
    obtain ⟨kind, tail, rfl, nonzero⟩ := encodeFrame_visible visible here
    simpa using nonzero

theorem Apart.tail {frame : Frame} {rest : List Frame} (apart : Apart (frame :: rest)) :
    Apart rest := by
  cases frame with
  | padding length => exact apart.2
  | _ => exact apart

theorem map_cons_eq_ok {ε : Type} {result : Except ε (List Frame)} {read : Frame}
    {rest : List Frame} :
    result.map (read :: ·) = .ok (frame :: rest) ↔ read = frame ∧ result = .ok rest := by
  cases result with
  | error problem =>
    constructor
    · intro same
      cases same
    · rintro ⟨-, same⟩
      cases same
  | ok others =>
    change Except.ok (read :: others) = .ok (frame :: rest) ↔ _
    simp

/-- The loop gives the frames back exactly when each is found where it was written. -/
theorem untilEnd_frames {frames : List Frame} {before bytes : Bytes} {fuel : Nat}
    (apart : Apart frames) (made : ∀ frame ∈ frames, frame.Made)
    (encoded : encodeFrames frames = .ok bytes) (enough : bytes.length ≤ fuel) :
    decodeNext.untilEnd .unfinished (before ++ bytes) fuel before.length = .ok frames ↔
      Rereads before frames := by
  induction frames generalizing before bytes fuel with
  | nil =>
    cases encoded
    rw [append_nil]
    refine iff_of_true ?_ trivial
    cases fuel with
    | zero => rw [Cursor.untilEnd, if_pos le_rfl]
    | succ fuel => rw [Cursor.untilEnd, if_pos le_rfl]
  | cons frame rest ih =>
    obtain ⟨first, more, here, later, rfl⟩ := encodeFrames_cons encoded
    have apartRest := apart.tail
    have madeRest := fun other member => made other (mem_cons_of_mem frame member)
    have madeHere := made frame mem_cons_self
    have positive : 0 < first.length := by
      by_cases padded : ∃ length, frame = .padding length
      · obtain ⟨length, rfl⟩ := padded
        cases here
        rw [length_replicate]
        exact madeHere
      · obtain ⟨kind, tail, rfl, -⟩ :=
          encodeFrame_visible (fun length same => padded ⟨length, same⟩) here
        exact Nat.succ_pos _
    rw [length_append] at enough
    obtain ⟨fuel, rfl⟩ := Nat.exists_eq_add_of_le' (show 1 ≤ fuel by omega)
    have further := @ih (before ++ first) more fuel apartRest madeRest later (by omega)
    rw [append_assoc] at further
    rw [Cursor.untilEnd, if_neg (by simp only [length_append]; omega)]
    by_cases padded : ∃ length, frame = .padding length
    · obtain ⟨length, rfl⟩ := padded
      cases here
      rw [decodeNext_padding before more madeHere (head_encodeFrames apart.1 later)]
      dsimp only
      rw [map_cons_eq_ok, rereads_padding, further]
      exact and_iff_right rfl
    · have visible : ∀ length, frame ≠ .padding length :=
        fun length same => padded ⟨length, same⟩
      rw [decodeNext_visible madeHere visible here more]
      have unfolded : Rereads before (frame :: rest) ↔
          frame.reread (before ++ first) = .ok frame ∧ Rereads (before ++ first) rest := by
        constructor
        · exact fun rereads => rereads first here
        · intro rereads bytes encodedHere
          cases here.symm.trans encodedHere
          exact rereads
      rw [unfolded]
      cases frame.reread (before ++ first) with
      | error problem =>
        constructor
        · intro same
          cases same
        · rintro ⟨same, -⟩
          cases same
      | ok read =>
        rw [Except.ok.injEq]
        exact map_cons_eq_ok.trans (and_congr_right fun _ => further)

/-- Every frame keeps the decoder's limits, and every field is found where it is written. -/
def Findable (frames : List Frame) : Prop :=
  ∀ earlier frame later before bytes, frames = earlier ++ frame :: later →
    encodeFrames earlier = .ok before → encodeFrame frame = .ok bytes →
    frame.Decodable ∧ ∀ field ∈ frame.fields (before ++ bytes).length,
      FoundIn (before ++ bytes) field

theorem rereads_iff (written : Bytes) (encoded : encodeFrames frames = .ok payload) :
    Rereads written frames ↔ ∀ earlier frame later before bytes,
      frames = earlier ++ frame :: later → encodeFrames earlier = .ok before →
      encodeFrame frame = .ok bytes → frame.Decodable ∧
        ∀ field ∈ frame.fields (written ++ before ++ bytes).length,
          FoundIn (written ++ before ++ bytes) field := by
  induction frames generalizing written payload with
  | nil => exact iff_of_true trivial fun earlier frame later before bytes same => by simp at same
  | cons head rest ih =>
    obtain ⟨first, more, here, later, rfl⟩ := encodeFrames_cons encoded
    constructor
    · intro rereads earlier frame after before bytes same encodedBefore encodedHere
      cases earlier with
      | nil =>
        cases same
        cases encodedBefore
        rw [append_nil]
        exact (encodeFrame_fields encodedHere written).mp (rereads bytes encodedHere).1
      | cons _ earlier =>
        cases same
        obtain ⟨begin, others, atHead, following, rfl⟩ := encodeFrames_cons encodedBefore
        cases here.symm.trans atHead
        have found := (ih (written ++ first) later).mp (rereads first here).2 earlier frame after
          others bytes rfl following encodedHere
        rw [← append_assoc written]
        exact found
    · intro every bytes encodedHere
      cases here.symm.trans encodedHere
      constructor
      · have found := every [] head rest [] first rfl rfl here
        rw [append_nil] at found
        exact (encodeFrame_fields here written).mpr found
      · refine (ih (written ++ first) later).mpr ?_
        intro earlier frame after before bytes same encodedBefore encodedFrame
        subst same
        have whole : encodeFrames (head :: earlier) = .ok (first ++ before) := by
          rw [encodeFrames, here, encodedBefore]
          rfl
        have found := every (head :: earlier) frame after (first ++ before) bytes rfl whole
          encodedFrame
        rw [← append_assoc written] at found
        exact found

theorem decodeFrames_encodeFrames
    (made : ∀ frame ∈ frames, frame.Made) (encoded : encodeFrames frames = .ok payload) :
    decodeFrames payload = .ok (mergePaddings frames) ↔ Findable frames := by
  have loop := @untilEnd_frames _ [] payload _ (mergePaddings_apart frames)
    (mergePaddings_made made) (encodeFrames_mergePaddings encoded) le_rfl
  rw [rereads_mergePaddings, rereads_iff [] encoded] at loop
  exact loop

theorem encodeFrames_append (encoded : encodeFrames (earlier ++ later) = .ok payload) :
    ∃ before rest, encodeFrames earlier = .ok before ∧ encodeFrames later = .ok rest ∧
      payload = before ++ rest := by
  induction earlier generalizing payload with
  | nil => exact ⟨[], payload, rfl, encoded, rfl⟩
  | cons frame earlier ih =>
    obtain ⟨first, more, here, following, rfl⟩ := encodeFrames_cons encoded
    obtain ⟨before, rest, encodedBefore, encodedLater, rfl⟩ := ih following
    refine ⟨first ++ before, rest, ?_, encodedLater, (append_assoc ..).symm⟩
    rw [encodeFrames, here, encodedBefore]
    rfl

theorem Frame.fields_inside (member : field ∈ frame.fields size) : field.1 ≤ size := by
  cases frame <;> simp only [Frame.fields, mem_cons, not_mem_nil, or_false] at member
  case newConnectionId sequenceNumber retirePriorTo connectionId token =>
    rcases member with rfl | rfl
    · exact (Nat.sub_le _ _).trans (Nat.sub_le _ _)
    · exact Nat.sub_le _ _
  all_goals
    subst member
    exact Nat.sub_le _ _

theorem findable_of_length
    (encoded : encodeFrames frames = .ok payload) (short : payload.length ≤ maxInt)
    (limits : ∀ frame ∈ frames, frame.Decodable) : Findable frames := by
  intro earlier frame later before bytes same encodedBefore encodedHere
  subst same
  obtain ⟨written, rest, encodedEarlier, more, rfl⟩ := encodeFrames_append encoded
  obtain ⟨here, tail, encodedFrame, -, rfl⟩ := encodeFrames_cons more
  cases encodedEarlier.symm.trans encodedBefore
  cases encodedFrame.symm.trans encodedHere
  refine ⟨limits frame (mem_append_right _ mem_cons_self), fun field member => .inl ?_⟩
  have within := Frame.fields_inside member
  simp only [length_append] at short within
  omega

end SwStack.Quic
