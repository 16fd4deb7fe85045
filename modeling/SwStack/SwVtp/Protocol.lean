import SwStack.Lib.Reader

/-! Datagrams: a header of 64 bytes in network order, then the payload it announces. -/
namespace SwStack.SwVtp

open SwStack.Lib

def kSwVtpHeaderBytes : UInt16 := 64

def kSwVtpVersion1 : UInt8 := 1

def kSwVtpMagic : UInt32 := 0x53575654

/-- An enumeration over a byte: a parsed message can hold any of its values. -/
structure SwVtpMessageType where
  code : UInt8
  deriving DecidableEq

namespace SwVtpMessageType

def invalid : SwVtpMessageType := ⟨0⟩

def frameFragment : SwVtpMessageType := ⟨16⟩

end SwVtpMessageType

structure SwVtpTrackType where
  code : UInt8
  deriving DecidableEq

def SwVtpTrackType.video : SwVtpTrackType := ⟨1⟩

structure SwVtpCodec where
  code : UInt8
  deriving DecidableEq

namespace SwVtpCodec

def h264 : SwVtpCodec := ⟨1⟩

def h265 : SwVtpCodec := ⟨2⟩

def av1 : SwVtpCodec := ⟨3⟩

end SwVtpCodec

def SwVtpFlag_KeyFrame : UInt32 := 0x1

def SwVtpFlag_Discontinuity : UInt32 := 0x2

def SwVtpFlag_CodecConfig : UInt32 := 0x4

structure SwVtpHeader where
  version : UInt8
  messageType : SwVtpMessageType
  headerBytes : UInt16
  flags : UInt32
  streamId : UInt16
  trackId : UInt16
  trackType : SwVtpTrackType
  codec : SwVtpCodec
  temporalLayer : UInt8
  spatialLayer : UInt8
  frameId : UInt32
  fragmentIndex : UInt16
  fragmentCount : UInt16
  payloadBytes : UInt16
  fecGroupId : UInt16
  ptsUs : UInt64
  captureTimeUs : UInt64
  deadlineUs : UInt64
  sendTimeUs : UInt64
  deriving DecidableEq

namespace SwVtpHeader

def isValid (header : SwVtpHeader) : Bool :=
  header.version = kSwVtpVersion1 && header.headerBytes = kSwVtpHeaderBytes &&
    header.messageType ≠ .invalid

def hasFlag (header : SwVtpHeader) (flag : UInt32) : Bool := header.flags &&& flag ≠ 0

end SwVtpHeader

structure SwVtpDatagram where
  header : SwVtpHeader
  payload : Bytes
  deriving DecidableEq

def swVtpAppendU8 (value : UInt8) : Bytes := bigEndian value.toNat 1

def swVtpAppendU16 (value : UInt16) : Bytes := bigEndian value.toNat 2

def swVtpAppendU32 (value : UInt32) : Bytes := bigEndian value.toNat 4

def swVtpAppendU64 (value : UInt64) : Bytes := bigEndian value.toNat 8

def swVtpReadU8 : Reader UInt8 UInt8 := do
  let value ← readBigEndian 1
  pure (UInt8.ofNat value)

def swVtpReadU16 : Reader UInt8 UInt16 := do
  let value ← readBigEndian 2
  pure (UInt16.ofNat value)

def swVtpReadU32 : Reader UInt8 UInt32 := do
  let value ← readBigEndian 4
  pure (UInt32.ofNat value)

def swVtpReadU64 : Reader UInt8 UInt64 := do
  let value ← readBigEndian 8
  pure (UInt64.ofNat value)

theorem readU8_reads (value : UInt8) : swVtpReadU8.Reads (swVtpAppendU8 value) value := by
  have read := (@readBigEndian_reads _ 1 value.toNat_lt).bind_pure UInt8.ofNat
  rwa [UInt8.ofNat_toNat] at read

theorem readU16_reads (value : UInt16) : swVtpReadU16.Reads (swVtpAppendU16 value) value := by
  have read := (@readBigEndian_reads _ 2 value.toNat_lt).bind_pure UInt16.ofNat
  rwa [UInt16.ofNat_toNat] at read

theorem readU32_reads (value : UInt32) : swVtpReadU32.Reads (swVtpAppendU32 value) value := by
  have read := (@readBigEndian_reads _ 4 value.toNat_lt).bind_pure UInt32.ofNat
  rwa [UInt32.ofNat_toNat] at read

theorem readU64_reads (value : UInt64) : swVtpReadU64.Reads (swVtpAppendU64 value) value := by
  have read := (@readBigEndian_reads _ 8 value.toNat_lt).bind_pure UInt64.ofNat
  rwa [UInt64.ofNat_toNat] at read

def swVtpSerializeHeader (header : SwVtpHeader) : Bytes :=
  swVtpAppendU32 kSwVtpMagic ++ (swVtpAppendU8 header.version ++
  (swVtpAppendU8 header.messageType.code ++ (swVtpAppendU16 header.headerBytes ++
  (swVtpAppendU32 header.flags ++ (swVtpAppendU16 header.streamId ++
  (swVtpAppendU16 header.trackId ++ (swVtpAppendU8 header.trackType.code ++
  (swVtpAppendU8 header.codec.code ++ (swVtpAppendU8 header.temporalLayer ++
  (swVtpAppendU8 header.spatialLayer ++ (swVtpAppendU32 header.frameId ++
  (swVtpAppendU16 header.fragmentIndex ++ (swVtpAppendU16 header.fragmentCount ++
  (swVtpAppendU16 header.payloadBytes ++ (swVtpAppendU16 header.fecGroupId ++
  (swVtpAppendU64 header.ptsUs ++ (swVtpAppendU64 header.captureTimeUs ++
  (swVtpAppendU64 header.deadlineUs ++ swVtpAppendU64 header.sendTimeUs))))))))))))))))))

/-- The magic number and the fields, in the order of the wire. -/
def swVtpReadHeader : Reader UInt8 (UInt32 × SwVtpHeader) := do
  let magic ← swVtpReadU32
  let version ← swVtpReadU8
  let messageType ← swVtpReadU8
  let headerBytes ← swVtpReadU16
  let flags ← swVtpReadU32
  let streamId ← swVtpReadU16
  let trackId ← swVtpReadU16
  let trackType ← swVtpReadU8
  let codec ← swVtpReadU8
  let temporalLayer ← swVtpReadU8
  let spatialLayer ← swVtpReadU8
  let frameId ← swVtpReadU32
  let fragmentIndex ← swVtpReadU16
  let fragmentCount ← swVtpReadU16
  let payloadBytes ← swVtpReadU16
  let fecGroupId ← swVtpReadU16
  let ptsUs ← swVtpReadU64
  let captureTimeUs ← swVtpReadU64
  let deadlineUs ← swVtpReadU64
  let sendTimeUs ← swVtpReadU64
  pure (magic, {
    version, headerBytes, flags, streamId, trackId, temporalLayer, spatialLayer, frameId,
    fragmentIndex, fragmentCount, payloadBytes, fecGroupId, ptsUs, captureTimeUs, deadlineUs,
    sendTimeUs
    messageType := ⟨messageType⟩
    trackType := ⟨trackType⟩
    codec := ⟨codec⟩ })

def swVtpParseHeader (bytes : Bytes) : Option SwVtpHeader :=
  if bytes.length < kSwVtpHeaderBytes.toNat then none
  else
    match swVtpReadHeader bytes with
    | none => none
    | some ((magic, header), _) =>
      if magic ≠ kSwVtpMagic then none
      else if !header.isValid then none
      else if bytes.length < header.headerBytes.toNat + header.payloadBytes.toNat then none
      else some header

/-- An empty array stands for the arguments it refuses. -/
def swVtpSerializeDatagramPayload (inputHeader : SwVtpHeader) (payload : Bytes) : Bytes :=
  if 0xffff < payload.length then []
  else
    swVtpSerializeHeader
      { inputHeader with
        headerBytes := kSwVtpHeaderBytes
        payloadBytes := UInt16.ofNat payload.length } ++ payload

def swVtpParseDatagram (bytes : Bytes) : Option SwVtpDatagram :=
  match swVtpParseHeader bytes with
  | none => none
  | some header =>
    if bytes.length ≠ header.headerBytes.toNat + header.payloadBytes.toNat then none
    else
      some {
        header
        payload := (bytes.drop header.headerBytes.toNat).take header.payloadBytes.toNat }

theorem readHeader_reads (header : SwVtpHeader) :
    swVtpReadHeader.Reads (swVtpSerializeHeader header) (kSwVtpMagic, header) := by
  refine (readU32_reads _).bind ?_
  refine (readU8_reads _).bind ?_
  refine (readU8_reads _).bind ?_
  refine (readU16_reads _).bind ?_
  refine (readU32_reads _).bind ?_
  refine (readU16_reads _).bind ?_
  refine (readU16_reads _).bind ?_
  refine (readU8_reads _).bind ?_
  refine (readU8_reads _).bind ?_
  refine (readU8_reads _).bind ?_
  refine (readU8_reads _).bind ?_
  refine (readU32_reads _).bind ?_
  refine (readU16_reads _).bind ?_
  refine (readU16_reads _).bind ?_
  refine (readU16_reads _).bind ?_
  refine (readU16_reads _).bind ?_
  refine (readU64_reads _).bind ?_
  refine (readU64_reads _).bind ?_
  refine (readU64_reads _).bind ?_
  exact (readU64_reads _).bind_pure _

theorem length_swVtpSerializeHeader (header : SwVtpHeader) :
    (swVtpSerializeHeader header).length = kSwVtpHeaderBytes.toNat := by
  simp only [swVtpSerializeHeader, swVtpAppendU8, swVtpAppendU16, swVtpAppendU32, swVtpAppendU64,
    List.length_append, length_bigEndian]
  rfl

/-- What is serialized is parsed back, with the sizes filled in. -/
theorem parseDatagram_serialize
    (version : header.version = kSwVtpVersion1) (valid : header.messageType ≠ .invalid)
    (fits : payload.length ≤ 0xffff) :
    swVtpParseDatagram (swVtpSerializeDatagramPayload header payload) = some {
      header := { header with
        headerBytes := kSwVtpHeaderBytes
        payloadBytes := UInt16.ofNat payload.length }
      payload } := by
  have size : (UInt16.ofNat payload.length).toNat = payload.length :=
    UInt16.toNat_ofNat_of_lt (Nat.lt_succ_of_le fits)
  rw [swVtpSerializeDatagramPayload, if_neg (by omega)]
  generalize filled : { header with
    headerBytes := kSwVtpHeaderBytes
    payloadBytes := UInt16.ofNat payload.length } = sent
  have isValid : sent.isValid = true := by
    subst filled
    simp [SwVtpHeader.isValid, version, valid]
  have headerBytes : sent.headerBytes = kSwVtpHeaderBytes := by rw [← filled]
  have payloadBytes : sent.payloadBytes.toNat = payload.length := by rw [← filled, size]
  have total := length_swVtpSerializeHeader sent
  have parsed : swVtpParseHeader (swVtpSerializeHeader sent ++ payload) = some sent := by
    rw [swVtpParseHeader, List.length_append, total, if_neg (by omega), readHeader_reads sent payload]
    dsimp only
    rw [if_neg (not_not.mpr rfl), isValid, if_neg (by simp), headerBytes, payloadBytes,
      if_neg (by omega)]
  rw [swVtpParseDatagram, parsed]
  dsimp only
  rw [headerBytes, payloadBytes, List.length_append, total, if_neg (not_not.mpr rfl), ← total,
    List.drop_left, List.take_length]

end SwStack.SwVtp
