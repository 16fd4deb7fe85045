import SwStack.Quic.VarInt
import SwStack.Types.ByteArray

/-! The frames of HTTP/3: a type, a length and a payload whose grammar depends on the type. The
decoder moves a shared offset as it reads, also where it fails later. -/
namespace SwStack.Http3

open SwStack.Lib SwStack.Types List
open SwStack.Quic (Decoder DecodeFailure decodeVarInt encodeVarInt maxVarInt varIntBytes
  varIntBytes_eq varIntBytes_length decodeVarInt_varIntBytes decodeVarInt_yields
  decodeVarInt_keeps encodeVarInt_length decodeVarInt_truncated varIntMissing varIntTruncated)

def typeData : Nat := 0x00
def typeHeaders : Nat := 0x01
def typeCancelPush : Nat := 0x03
def typeSettings : Nat := 0x04
def typePushPromise : Nat := 0x05
def typeGoAway : Nat := 0x07
def typeMaxPushId : Nat := 0x0d

abbrev Setting := Nat × Nat

inductive Frame where
  | data (payload : Bytes)
  | headers (payload : Bytes)
  | cancelPush (id : Nat)
  | settings (pairs : List Setting)
  | pushPromise (pushId : Nat) (encodedFieldSection : Bytes)
  | goAway (id : Nat)
  | maxPushId (id : Nat)
  | unknown (rawType : Nat) (payload : Bytes)
  deriving DecidableEq

namespace Frame

def rawType : Frame → Nat
  | .data _ => typeData
  | .headers _ => typeHeaders
  | .cancelPush _ => typeCancelPush
  | .settings _ => typeSettings
  | .pushPromise _ _ => typePushPromise
  | .goAway _ => typeGoAway
  | .maxPushId _ => typeMaxPushId
  | .unknown rawType _ => rawType

end Frame

def buildSettings : List Setting → Except String Bytes
  | [] => .ok []
  | pair :: pairs => do
    let identifier ← encodeVarInt pair.1
    let value ← encodeVarInt pair.2
    let rest ← buildSettings pairs
    return identifier ++ value ++ rest

def buildPayload : Frame → Except String Bytes
  | .data payload => .ok payload
  | .headers payload => .ok payload
  | .cancelPush id => encodeVarInt id
  | .settings pairs => buildSettings pairs
  | .pushPromise pushId encodedFieldSection => return (← encodeVarInt pushId) ++ encodedFieldSection
  | .goAway id => encodeVarInt id
  | .maxPushId id => encodeVarInt id
  | .unknown _ payload => .ok payload

/-- The bytes that are appended to the output. -/
def encodeFrame (frame : Frame) : Except String Bytes := do
  let payload ← buildPayload frame
  let typeBytes ← encodeVarInt frame.rawType
  let lengthBytes ← encodeVarInt payload.length
  return typeBytes ++ lengthBytes ++ payload

/-- Frames are appended to one output. -/
def encodeFrames : List Frame → Except String Bytes
  | [] => .ok []
  | frame :: frames => do
    let bytes ← encodeFrame frame
    let rest ← encodeFrames frames
    return bytes ++ rest

def readSlice (length : Nat) : Decoder Bytes := fun buffer offset =>
  if maxInt < length then
    .error (.error "HTTP/3 frame length is too large for SwByteArray slicing")
  else if buffer.length < offset ∨ buffer.length - offset < length then
    .error (.error "HTTP/3 frame payload is truncated")
  else if length = 0 then .ok ([], offset + length)
  else match mid buffer (toInt offset) (toInt length) with
  | some slice => .ok (slice, offset + length)
  | none => .error .outside

def readSinglePayloadVarInt (payload : Bytes) : Except DecodeFailure Nat :=
  match decodeVarInt payload 0 with
  | .error failure => .error failure
  | .ok (value, inner) =>
    if inner ≠ payload.length then
      .error (.error "HTTP/3 frame has trailing bytes after its value")
    else .ok value

def readSetting : Decoder Setting := do
  let identifier ← decodeVarInt
  let value ← decodeVarInt
  return (identifier, value)

def parseSettings (payload : Bytes) : Except DecodeFailure (List Setting) :=
  readSetting.untilEnd .unfinished payload payload.length 0

def parsePushPromise (payload : Bytes) : Except DecodeFailure Frame :=
  match decodeVarInt payload 0 with
  | .error failure => .error failure
  | .ok (pushId, inner) =>
    .ok (.pushPromise pushId (foundAt payload inner (payload.length - inner)))

def parsePayload (typeValue : Nat) (payload : Bytes) : Except DecodeFailure Frame :=
  if typeValue = typeData then .ok (.data payload)
  else if typeValue = typeHeaders then .ok (.headers payload)
  else if typeValue = typeCancelPush then (readSinglePayloadVarInt payload).map .cancelPush
  else if typeValue = typeSettings then (parseSettings payload).map .settings
  else if typeValue = typePushPromise then parsePushPromise payload
  else if typeValue = typeGoAway then (readSinglePayloadVarInt payload).map .goAway
  else if typeValue = typeMaxPushId then (readSinglePayloadVarInt payload).map .maxPushId
  else .ok (.unknown typeValue payload)

/-- The frame or the failure, and the offset that the caller is left with. -/
def decodeFrame (buffer : Bytes) (offset : Nat) : Except DecodeFailure Frame × Nat :=
  match decodeVarInt buffer offset with
  | .error failure => (.error failure, offset)
  | .ok (typeValue, afterType) =>
    match decodeVarInt buffer afterType with
    | .error failure => (.error failure, afterType)
    | .ok (length, afterLength) =>
      match readSlice length buffer afterLength with
      | .error failure => (.error failure, afterLength)
      | .ok (payload, next) => (parsePayload typeValue payload, next)

/-- The loop of the callers: frames are decoded up to the end of the input. -/
def decodeFramesFrom (buffer : Bytes) : Nat → Nat → Except DecodeFailure (List Frame)
  | 0, offset => if buffer.length ≤ offset then .ok [] else .error .unfinished
  | fuel + 1, offset =>
    if buffer.length ≤ offset then .ok []
    else match decodeFrame buffer offset with
    | (.error failure, _) => .error failure
    | (.ok frame, next) => (decodeFramesFrom buffer fuel next).map (frame :: ·)

def decodeFrames (buffer : Bytes) : Except DecodeFailure (List Frame) :=
  decodeFramesFrom buffer buffer.length 0

def knownTypes : List Nat := [typeData, typeHeaders, typeCancelPush, typeSettings,
  typePushPromise, typeGoAway, typeMaxPushId]

/-- An unknown type is none of the known ones. -/
def Frame.Made (frame : Frame) : Prop :=
  ∀ rawType payload, frame = .unknown rawType payload → rawType ∉ knownTypes

variable {frame : Frame} {payload bytes : Bytes}

theorem encodeFrame_eq (encoded : encodeFrame frame = .ok bytes) :
    ∃ payload, buildPayload frame = .ok payload ∧ frame.rawType ≤ maxVarInt ∧
      payload.length ≤ maxVarInt ∧
      bytes = varIntBytes frame.rawType ++ varIntBytes payload.length ++ payload := by
  unfold encodeFrame at encoded
  cases built : buildPayload frame with
  | error message =>
    rw [built] at encoded
    cases encoded
  | ok payload =>
    rw [built] at encoded
    cases first : encodeVarInt frame.rawType with
    | error message =>
      rw [first] at encoded
      cases encoded
    | ok typeBytes =>
      rw [first] at encoded
      cases second : encodeVarInt payload.length with
      | error message =>
        have failed : (Except.error message : Except String Bytes) = .ok bytes := by
          rw [← encoded]
          change _ = (encodeVarInt payload.length >>= _)
          rw [second]
          rfl
        cases failed
      | ok lengthBytes =>
        have done : (Except.ok (typeBytes ++ lengthBytes ++ payload) : Except String Bytes) =
            .ok bytes := by
          rw [← encoded]
          change _ = (encodeVarInt payload.length >>= _)
          rw [second]
          rfl
        cases done
        exact ⟨payload, rfl, (encodeVarInt_length first).2, (encodeVarInt_length second).2, by
          simp only [varIntBytes, first, second]⟩

def settingBytes (pair : Setting) : Bytes := varIntBytes pair.1 ++ varIntBytes pair.2

theorem buildSettings_eq (built : buildSettings pairs = .ok bytes) :
    bytes = pairs.flatMap settingBytes ∧
      ∀ pair ∈ pairs, pair.1 ≤ maxVarInt ∧ pair.2 ≤ maxVarInt := by
  induction pairs generalizing bytes with
  | nil =>
    cases built
    exact ⟨rfl, by simp⟩
  | cons pair pairs ih =>
    unfold buildSettings at built
    cases first : encodeVarInt pair.1 with
    | error message =>
      rw [first] at built
      cases built
    | ok identifier =>
      cases second : encodeVarInt pair.2 with
      | error message =>
        rw [first, second] at built
        cases built
      | ok value =>
        cases more : buildSettings pairs with
        | error message =>
          rw [first, second, more] at built
          cases built
        | ok rest =>
          rw [first, second, more] at built
          cases built
          obtain ⟨same, small⟩ := ih more
          constructor
          · rw [flatMap_cons, ← same, settingBytes, varIntBytes, varIntBytes, first, second]
          · intro other member
            rcases mem_cons.mp member with rfl | later
            · exact ⟨(encodeVarInt_length first).2, (encodeVarInt_length second).2⟩
            · exact small other later

theorem readSetting_yields (first : pair.1 ≤ maxVarInt)
    (second : pair.2 ≤ maxVarInt) (before : Bytes) :
    readSetting.Yields before (settingBytes pair) (.ok pair) :=
  (decodeVarInt_yields (varIntBytes_eq first)).bind
    ((decodeVarInt_yields (varIntBytes_eq second)).bind_pure fun value => (pair.1, value))

theorem parseSettings_eq {pairs : List Setting} (built : buildSettings pairs = .ok payload) :
    parseSettings payload = .ok pairs := by
  obtain ⟨rfl, small⟩ := buildSettings_eq built
  have nonempty : ∀ pair ∈ pairs, settingBytes pair ≠ [] := by
    intro pair member empty
    have positive := (varIntBytes_length (small pair member).1).1
    have length := congrArg List.length empty
    rw [settingBytes, length_append, length_nil] at length
    omega
  exact Cursor.untilEnd_yields
    (fun pair member => readSetting_yields (small pair member).1 (small pair member).2) nonempty
    (Cursor.length_le_flatMap_of_ne_nil nonempty) []

theorem readSinglePayloadVarInt_eq {id : Nat} (built : encodeVarInt id = .ok payload) :
    readSinglePayloadVarInt payload = .ok id := by
  have read := @decodeVarInt_yields [] _ _ built []
  rw [append_nil, nil_append] at read
  change decodeVarInt payload 0 = .ok (id, payload.length) at read
  unfold readSinglePayloadVarInt
  rw [read]
  exact if_neg (not_not.mpr rfl)

theorem parsePushPromise_eq {pushId : Nat} {fieldSection : Bytes} (small : pushId ≤ maxVarInt)
    (short : (varIntBytes pushId ++ fieldSection).length ≤ maxInt) :
    parsePushPromise (varIntBytes pushId ++ fieldSection) = .ok (.pushPromise pushId fieldSection) := by
  have read := @decodeVarInt_yields [] _ _ (varIntBytes_eq small) fieldSection
  rw [nil_append, nil_append, length_nil] at read
  have found := @foundAt_eq (varIntBytes pushId) fieldSection [] short
  rw [append_nil] at found
  unfold parsePushPromise
  rw [read]
  dsimp only [Except.map]
  rw [length_append, Nat.add_sub_cancel_left, found]

theorem parsePayload_eq (made : frame.Made) (built : buildPayload frame = .ok payload)
    (short : payload.length ≤ maxInt) : parsePayload frame.rawType payload = .ok frame := by
  cases frame with
  | data _ | headers _ =>
    cases built
    rfl
  | cancelPush id | goAway id | maxPushId id =>
    have read := readSinglePayloadVarInt_eq built
    change (readSinglePayloadVarInt payload).map _ = _
    rw [read]
    rfl
  | settings pairs =>
    have read := parseSettings_eq built
    change (parseSettings payload).map _ = _
    rw [read]
    rfl
  | pushPromise pushId fieldSection =>
    change parsePushPromise payload = _
    change (return (← encodeVarInt pushId) ++ fieldSection) = _ at built
    cases encoded : encodeVarInt pushId with
    | error message =>
      rw [encoded] at built
      cases built
    | ok pushIdBytes =>
      have small := (encodeVarInt_length encoded).2
      rw [varIntBytes_eq small] at encoded built
      cases built
      exact parsePushPromise_eq small short
  | unknown rawType _ =>
    cases built
    have unlisted := made rawType _ rfl
    simp only [knownTypes, mem_cons, not_mem_nil, or_false, not_or] at unlisted
    obtain ⟨data, headers, cancelPush, settings, pushPromise, goAway, maxPushId⟩ := unlisted
    change parsePayload rawType payload = _
    unfold parsePayload
    rw [if_neg data, if_neg headers, if_neg cancelPush, if_neg settings, if_neg pushPromise,
      if_neg goAway, if_neg maxPushId]

theorem readSlice_eq {before after : Bytes} (short : (before ++ payload).length ≤ maxInt) :
    readSlice payload.length (before ++ (payload ++ after)) before.length =
      .ok (payload, before.length + payload.length) := by
  have field := @mid_of_short _ _ after short
  rw [length_append] at short
  unfold readSlice
  rw [if_neg (by omega), if_neg (by simp)]
  by_cases empty : payload.length = 0
  · rw [if_pos empty, empty, length_eq_zero_iff.mp empty]
  · rw [if_neg empty, field]

/-- A frame is decoded from its own bytes, and the offset moves behind them. -/
theorem decodeFrame_eq {before after : Bytes} (made : frame.Made)
    (encoded : encodeFrame frame = .ok bytes) (short : (before ++ bytes).length ≤ maxInt) :
    decodeFrame (before ++ (bytes ++ after)) before.length =
      (.ok frame, (before ++ bytes).length) := by
  obtain ⟨payload, built, smallType, smallLength, rfl⟩ := encodeFrame_eq encoded
  have lengths : (before ++ (varIntBytes frame.rawType ++ varIntBytes payload.length ++
      payload)).length = (before ++ varIntBytes frame.rawType ++ varIntBytes payload.length ++
      payload).length := by
    simp only [append_assoc]
  rw [lengths] at short ⊢
  have first := @decodeVarInt_yields before _ _ (varIntBytes_eq smallType)
    (varIntBytes payload.length ++ (payload ++ after))
  have second := @decodeVarInt_yields (before ++ varIntBytes frame.rawType) _ _
    (varIntBytes_eq smallLength) (payload ++ after)
  have third := @readSlice_eq _ _ after short
  simp only [append_assoc] at first second third ⊢
  have fits : payload.length ≤ maxInt := by
    rw [length_append] at short
    omega
  unfold decodeFrame
  rw [first]
  dsimp only [Except.map]
  rw [second]
  dsimp only [Except.map]
  rw [third]
  dsimp only
  rw [parsePayload_eq made built fits, ← length_append]
  simp only [append_assoc]

theorem prefix_append_cases (begun : part <+: first ++ second) :
    part <+: first ∧ part.length < first.length ∨ ∃ rest, part = first ++ rest ∧ rest <+: second := by
  rcases lt_or_ge part.length first.length with short | long
  · exact .inl ⟨prefix_of_prefix_length_le begun (prefix_append first second) short.le,
      short⟩
  · obtain ⟨rest, rfl⟩ :=
      prefix_of_prefix_length_le (prefix_append first second) begun long
    exact .inr ⟨rest, rfl, (prefix_append_right_inj first).mp begun⟩

def payloadTruncated : String := "HTTP/3 frame payload is truncated"

/-- How decoding reports that bytes are missing. -/
def incompleteMessages : List String := [varIntMissing, varIntTruncated, payloadTruncated]

/-- How far the offset moves over the first bytes of a frame: behind the integers that are
complete. -/
def movedOver (frame : Frame) (payloadLength available : Nat) : Nat :=
  let typeLength := (varIntBytes frame.rawType).length
  let headerLength := typeLength + (varIntBytes payloadLength).length
  if available < typeLength then 0 else if available < headerLength then typeLength
  else headerLength

theorem readSlice_truncated {before part : Bytes} {length : Nat} (fits : length ≤ maxInt)
    (missing : part.length < length) :
    readSlice length (before ++ part) before.length = .error (.error payloadTruncated) := by
  unfold readSlice
  rw [if_neg (by omega), if_pos]
  · rfl
  · rw [length_append]
    omega

theorem mem_incomplete (member : message ∈ [varIntMissing, varIntTruncated]) :
    message ∈ incompleteMessages :=
  mem_append_left [payloadTruncated] member

theorem decodeFrame_incomplete (encoded : encodeFrame frame = .ok bytes)
    (built : buildPayload frame = .ok payload) (fits : payload.length ≤ maxInt)
    (begun : part <+: bytes) (unfinished : part ≠ bytes) :
    ∃ message ∈ incompleteMessages, decodeFrame (before ++ part) before.length =
      (.error (.error message), before.length + movedOver frame payload.length part.length) := by
  obtain ⟨_, same, smallType, smallLength, rfl⟩ := encodeFrame_eq encoded
  cases built.symm.trans same
  rw [append_assoc] at begun unfinished
  unfold movedOver
  dsimp only
  rcases prefix_append_cases begun with ⟨within, less⟩ | ⟨rest, rfl, afterType⟩
  · obtain ⟨message, listed, failed⟩ := @decodeVarInt_truncated before _ _ smallType within
      (fun whole => by rw [whole] at less; exact lt_irrefl _ less)
    refine ⟨message, mem_incomplete listed, ?_⟩
    rw [if_pos less, Nat.add_zero, decodeFrame, failed]
  have typeRead := @decodeVarInt_yields before _ _ (varIntBytes_eq smallType) rest
  rw [length_append] at typeRead
  rw [if_neg (by rw [length_append]; omega), decodeFrame, typeRead]
  dsimp only [Except.map]
  rcases prefix_append_cases afterType with ⟨within, less⟩ | ⟨rest, rfl, afterLength⟩
  · obtain ⟨message, listed, failed⟩ := @decodeVarInt_truncated
      (before ++ varIntBytes frame.rawType) _ _ smallLength within
      (fun whole => by rw [whole] at less; exact lt_irrefl _ less)
    rw [append_assoc, length_append] at failed
    refine ⟨message, mem_incomplete listed, ?_⟩
    rw [if_pos (by rw [length_append]; omega), failed]
  have lengthRead := @decodeVarInt_yields (before ++ varIntBytes frame.rawType) _ _
    (varIntBytes_eq smallLength) rest
  rw [append_assoc, length_append, length_append, length_append] at lengthRead
  rw [if_neg (by simp only [length_append]; omega), lengthRead]
  dsimp only [Except.map]
  have less : rest.length < payload.length := by
    refine lt_of_le_of_ne afterLength.length_le fun same => ?_
    rw [afterLength.eq_of_length same] at unfinished
    exact unfinished rfl
  have failed := @readSlice_truncated (before ++ varIntBytes frame.rawType ++
    varIntBytes payload.length) rest _ fits less
  refine ⟨payloadTruncated, by simp [incompleteMessages], ?_⟩
  simp only [append_assoc, length_append] at failed ⊢
  rw [← Nat.add_assoc] at failed
  rw [failed, Nat.add_assoc]

theorem encodeFrames_cons (encoded : encodeFrames (frame :: frames) = .ok stream) :
    ∃ bytes rest, encodeFrame frame = .ok bytes ∧ encodeFrames frames = .ok rest ∧
      stream = bytes ++ rest := by
  unfold encodeFrames at encoded
  cases first : encodeFrame frame with
  | error message =>
    rw [first] at encoded
    cases encoded
  | ok bytes =>
    cases more : encodeFrames frames with
    | error message =>
      rw [first, more] at encoded
      cases encoded
    | ok rest =>
      rw [first, more] at encoded
      cases encoded
      exact ⟨bytes, rest, rfl, rfl, rfl⟩

theorem encodeFrames_append (encoded : encodeFrames (front ++ back) = .ok stream) :
    ∃ frontBytes backBytes, encodeFrames front = .ok frontBytes ∧
      encodeFrames back = .ok backBytes ∧ stream = frontBytes ++ backBytes := by
  induction front generalizing stream with
  | nil => exact ⟨[], stream, rfl, encoded, rfl⟩
  | cons frame front ih =>
    obtain ⟨bytes, rest, first, more, rfl⟩ := encodeFrames_cons encoded
    obtain ⟨frontBytes, backBytes, frontEncoded, backEncoded, rfl⟩ := ih more
    refine ⟨bytes ++ frontBytes, backBytes, ?_, backEncoded, by rw [append_assoc]⟩
    rw [encodeFrames, first, frontEncoded]
    rfl

theorem encodeFrame_positive (encoded : encodeFrame frame = .ok bytes) : 0 < bytes.length := by
  obtain ⟨payload, -, smallType, -, rfl⟩ := encodeFrame_eq encoded
  have positive := (varIntBytes_length smallType).1
  rw [length_append, length_append]
  omega

theorem decodeFramesFrom_eq {frames : List Frame} {before stream : Bytes} {fuel : Nat}
    (made : ∀ frame ∈ frames, frame.Made) (encoded : encodeFrames frames = .ok stream)
    (short : (before ++ stream).length ≤ maxInt) (enough : stream.length ≤ fuel) :
    decodeFramesFrom (before ++ stream) fuel before.length = .ok frames := by
  induction frames generalizing before stream fuel with
  | nil =>
    cases encoded
    have ended : (before ++ []).length ≤ before.length := by simp
    cases fuel <;> exact if_pos ended
  | cons frame frames ih =>
    obtain ⟨bytes, rest, first, more, rfl⟩ := encodeFrames_cons encoded
    have positive := encodeFrame_positive first
    rw [length_append] at enough
    obtain ⟨fuel, rfl⟩ := Nat.exists_eq_add_of_le' (show 1 ≤ fuel by omega)
    rw [← append_assoc] at short
    have read := @decodeFrame_eq _ _ before rest (made frame mem_cons_self) first (by
      rw [length_append] at short
      omega)
    have tail := @ih (before ++ bytes) rest fuel
      (fun other member => made other (mem_cons_of_mem _ member)) more short (by omega)
    rw [decodeFramesFrom, if_neg (by simp only [length_append]; omega), read]
    rw [append_assoc] at tail
    dsimp only
    rw [tail]
    rfl

/-- Frames are decoded from the concatenation of their encodings, each from exactly its own
bytes; of a frame that is cut off the decoder reports missing bytes, and leaves the offset behind
the integers of its header that are complete. -/
theorem http3Frames_roundTrip {frames : List Frame} {stream : Bytes}
    (made : ∀ frame ∈ frames, frame.Made) (encoded : encodeFrames frames = .ok stream)
    (short : stream.length ≤ maxInt) :
    decodeFrames stream = .ok frames ∧
    ∀ front frame back, frames = front ++ frame :: back →
      ∃ frontBytes payload bytes, encodeFrames front = .ok frontBytes ∧
        buildPayload frame = .ok payload ∧ encodeFrame frame = .ok bytes ∧
        decodeFrame stream frontBytes.length = (.ok frame, frontBytes.length + bytes.length) ∧
        ∀ part, part <+: bytes → part ≠ bytes →
          ∃ message ∈ incompleteMessages, decodeFrame (frontBytes ++ part) frontBytes.length =
            (.error (.error message),
              frontBytes.length + movedOver frame payload.length part.length) := by
  refine ⟨@decodeFramesFrom_eq _ [] _ _ made encoded short le_rfl, ?_⟩
  rintro front frame back rfl
  obtain ⟨frontBytes, backBytes, frontEncoded, backEncoded, rfl⟩ := encodeFrames_append encoded
  obtain ⟨bytes, rest, first, more, rfl⟩ := encodeFrames_cons backEncoded
  obtain ⟨payload, built, -, -, whole⟩ := encodeFrame_eq first
  rw [← append_assoc, length_append] at short
  have fits : payload.length ≤ maxInt := by
    rw [whole, length_append, length_append, length_append] at short
    omega
  refine ⟨frontBytes, payload, bytes, frontEncoded, built, first, ?_, fun part begun unfinished =>
    decodeFrame_incomplete first built fits begun unfinished⟩
  have read := @decodeFrame_eq _ _ frontBytes rest
    (made frame (mem_append_right _ mem_cons_self)) first (by omega)
  rw [read, length_append]

/-- SETTINGS, a GREASE frame and DATA. -/
theorem http3Frames_roundTrip_settings :
    decodeFrames [0x04, 0x03, 0x01, 0x50, 0x00, 0x21, 0x01, 0xff, 0x00, 0x02, 0x68, 0x69] =
      .ok [.settings [(1, 4096)], .unknown 0x21 [0xff], .data [0x68, 0x69]] := by
  have made : ∀ frame ∈ [Frame.settings [(1, 4096)], .unknown 0x21 [0xff], .data [0x68, 0x69]],
      frame.Made := by
    simp [Frame.Made, knownTypes, typeData, typeHeaders, typeCancelPush, typeSettings,
      typePushPromise, typeGoAway, typeMaxPushId]
  exact (http3Frames_roundTrip made (by decide) (by decide)).1

/-- The offset has moved behind the type when the length is missing. -/
theorem decodeFrame_moves_incomplete :
    ¬∀ (frame : Frame) (bytes part : Bytes) (failure : DecodeFailure) (offset : Nat),
      encodeFrame frame = .ok bytes → part <+: bytes → part ≠ bytes →
      decodeFrame part 0 = (.error failure, offset) → offset = 0 := by
  intro still
  have moved := still (.data [0x68]) [0x00, 0x01, 0x68] [0x00]
    (.error "QUIC variable integer is missing") 1 (by decide) ⟨[0x01, 0x68], rfl⟩ (by decide)
    (by decide)
  cases moved

end SwStack.Http3
