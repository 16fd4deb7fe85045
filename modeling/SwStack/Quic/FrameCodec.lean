import SwStack.Quic.VarInt
import SwStack.Types.ByteArray

/-! The frame codec: the bytes of every frame, and their decoding. The size a connection
packs a frame under is the number of these bytes. -/
namespace SwStack.Quic

open SwStack.Lib SwStack.Types

def appendVarInts : List Nat → Except String Bytes
  | [] => .ok []
  | value :: values => do
    let first ← encodeVarInt value
    let rest ← appendVarInts values
    return first ++ rest

/-- The type byte of a STREAM frame, which always carries its length. -/
def streamType (offset : Nat) (fin : Bool) : UInt8 :=
  0x0a ||| (if 0 < offset then 0x04 else 0) ||| (if fin then 0x01 else 0)

def appendEcnCounts : Option EcnCounts → Except String Bytes
  | some counts => appendVarInts [counts.ect0, counts.ect1, counts.ecnCe]
  | none => .ok []

def encodeFrame : Frame → Except String Bytes
  | .padding length => .ok (List.replicate length 0x00)
  | .ping => .ok [0x01]
  | .ack largestAcknowledged ackDelay firstAckRange ackRanges ecn => do
    let head ← appendVarInts [largestAcknowledged, ackDelay, ackRanges.length, firstAckRange]
    let ranges ← appendVarInts (ackRanges.flatMap fun range => [range.gap, range.rangeLength])
    let counts ← appendEcnCounts ecn
    return (if ecn.isSome then 0x03 else 0x02) :: (head ++ (ranges ++ counts))
  | .resetStream streamId errorCode finalSize =>
    return 0x04 :: (← appendVarInts [streamId, errorCode, finalSize])
  | .resetStreamAt streamId errorCode finalSize reliableSize =>
    return 0x24 :: (← appendVarInts [streamId, errorCode, finalSize, reliableSize])
  | .stopSending streamId errorCode => return 0x05 :: (← appendVarInts [streamId, errorCode])
  | .crypto offset data => return 0x06 :: ((← appendVarInts [offset, data.length]) ++ data)
  | .newToken data => return 0x07 :: ((← appendVarInts [data.length]) ++ data)
  | .stream streamId offset data fin => do
    let header ← appendVarInts
      (streamId :: ((if 0 < offset then [offset] else []) ++ [data.length]))
    return streamType offset fin :: (header ++ data)
  | .maxData maximum => return 0x10 :: (← appendVarInts [maximum])
  | .maxStreamData streamId maximum => return 0x11 :: (← appendVarInts [streamId, maximum])
  | .maxStreams bidirectional maximum =>
    return (if bidirectional then 0x12 else 0x13) :: (← appendVarInts [maximum])
  | .dataBlocked maximum => return 0x14 :: (← appendVarInts [maximum])
  | .streamDataBlocked streamId maximum => return 0x15 :: (← appendVarInts [streamId, maximum])
  | .streamsBlocked bidirectional maximum =>
    return (if bidirectional then 0x16 else 0x17) :: (← appendVarInts [maximum])
  | .newConnectionId sequenceNumber retirePriorTo connectionId statelessResetToken => do
    if connectionId.length < 1 ∨ 20 < connectionId.length then
      throw "QUIC NEW_CONNECTION_ID length is invalid"
    if statelessResetToken.length ≠ 16 then
      throw "QUIC NEW_CONNECTION_ID stateless reset token must be 16 bytes"
    let header ← appendVarInts [sequenceNumber, retirePriorTo]
    return 0x18 :: (header ++
      UInt8.ofNat connectionId.length :: (connectionId ++ statelessResetToken))
  | .retireConnectionId sequenceNumber => return 0x19 :: (← appendVarInts [sequenceNumber])
  | .pathChallenge data =>
    if data.length ≠ 8 then .error "QUIC PATH_CHALLENGE/PATH_RESPONSE must carry 8 bytes"
    else .ok (0x1a :: data)
  | .pathResponse data =>
    if data.length ≠ 8 then .error "QUIC PATH_CHALLENGE/PATH_RESPONSE must carry 8 bytes"
    else .ok (0x1b :: data)
  | .connectionClose applicationClose errorCode errorFrameType reasonPhrase => do
    let header ← appendVarInts
      (errorCode :: ((if applicationClose then [] else [errorFrameType]) ++ [reasonPhrase.length]))
    return (if applicationClose then 0x1d else 0x1c) :: (header ++ reasonPhrase)
  | .handshakeDone => .ok [0x1e]
  | .datagram data => return 0x31 :: ((← appendVarInts [data.length]) ++ data)

def encodeFrames : List Frame → Except String Bytes
  | [] => .ok []
  | frame :: frames => do
    let bytes ← encodeFrame frame
    let rest ← encodeFrames frames
    return bytes ++ rest

def readByte : Decoder UInt8 := fun input offset =>
  if input.length ≤ offset then .error (.error "QUIC frame is truncated")
  else match input[offset]? with
  | some byte => .ok (byte, offset + 1)
  | none => .error .outside

def remaining : Decoder Nat := fun input offset => .ok (input.length - offset, offset)

def readSlice (length : Nat) : Decoder Bytes := fun input offset =>
  if maxInt < length then
    .error (.error "QUIC frame field is too large for SwByteArray slicing")
  else if input.length - offset < length then .error (.error "QUIC frame field is truncated")
  else match mid input (toInt offset) (toInt length) with
  | some field => .ok (field, offset + length)
  | none => .error .outside

/-- An integer that may be left out, and is zero then. -/
def readOptional (present : Bool) : Decoder Nat := if present then decodeVarInt else pure 0

/-- A length, or all the bytes that remain. -/
def readLength (present : Bool) : Decoder Nat := if present then decodeVarInt else remaining

def readAckRange : Decoder AckRange := do
  let gap ← decodeVarInt
  let rangeLength ← decodeVarInt
  return { gap, rangeLength }

def readEcnCounts (hasEcn : Bool) : Decoder (Option EcnCounts) :=
  if hasEcn then do
    let ect0 ← decodeVarInt
    let ect1 ← decodeVarInt
    let ecnCe ← decodeVarInt
    return some { ect0, ect1, ecnCe }
  else pure none

def decodeAck (hasEcn : Bool) : Decoder Frame := do
  let largestAcknowledged ← decodeVarInt
  let ackDelay ← decodeVarInt
  let ackRangeCount ← decodeVarInt
  let firstAckRange ← decodeVarInt
  if 8192 < ackRangeCount then
    Cursor.fail (.error "QUIC ACK frame has too many ranges for this decoder")
  else do
    let ranges ← readAckRange.times ackRangeCount
    let counts ← readEcnCounts hasEcn
    return .ack largestAcknowledged ackDelay firstAckRange ranges counts

def decodeResetStream : Decoder Frame := do
  let streamId ← decodeVarInt
  let errorCode ← decodeVarInt
  let finalSize ← decodeVarInt
  return .resetStream streamId errorCode finalSize

def decodeResetStreamAt : Decoder Frame := do
  let streamId ← decodeVarInt
  let errorCode ← decodeVarInt
  let finalSize ← decodeVarInt
  let reliableSize ← decodeVarInt
  if finalSize < reliableSize then
    Cursor.fail (.error "RESET_STREAM_AT reliable size exceeds final size")
  else return .resetStreamAt streamId errorCode finalSize reliableSize

def decodeStopSending : Decoder Frame := do
  let streamId ← decodeVarInt
  let errorCode ← decodeVarInt
  return .stopSending streamId errorCode

def decodeCrypto : Decoder Frame := do
  let offset ← decodeVarInt
  let length ← decodeVarInt
  let data ← readSlice length
  return .crypto offset data

def decodeNewToken : Decoder Frame := do
  let length ← decodeVarInt
  let token ← readSlice length
  return .newToken token

def decodeStream (frameType : UInt8) : Decoder Frame := do
  let streamId ← decodeVarInt
  let streamOffset ← readOptional (frameType &&& 0x04 ≠ 0)
  let length ← readLength (frameType &&& 0x02 ≠ 0)
  let data ← readSlice length
  return .stream streamId streamOffset data (frameType &&& 0x01 ≠ 0)

/-- The frames that carry one limit. -/
def decodeLimit (frame : Nat → Frame) : Decoder Frame := do
  let maximum ← decodeVarInt
  return frame maximum

/-- The frames that carry a stream and its limit. -/
def decodeStreamLimit (frame : Nat → Nat → Frame) : Decoder Frame := do
  let streamId ← decodeVarInt
  let maximum ← decodeVarInt
  return frame streamId maximum

def decodeMaxData : Decoder Frame := decodeLimit .maxData
def decodeMaxStreamData : Decoder Frame := decodeStreamLimit .maxStreamData
def decodeMaxStreams (bidirectional : Bool) : Decoder Frame :=
  decodeLimit (.maxStreams bidirectional)
def decodeDataBlocked : Decoder Frame := decodeLimit .dataBlocked
def decodeStreamDataBlocked : Decoder Frame := decodeStreamLimit .streamDataBlocked
def decodeStreamsBlocked (bidirectional : Bool) : Decoder Frame :=
  decodeLimit (.streamsBlocked bidirectional)
def decodeRetireConnectionId : Decoder Frame := decodeLimit .retireConnectionId

def decodeNewConnectionId : Decoder Frame := do
  let sequenceNumber ← decodeVarInt
  let retirePriorTo ← decodeVarInt
  if sequenceNumber < retirePriorTo then
    Cursor.fail (.error "QUIC NEW_CONNECTION_ID retires a future sequence number")
  else do
    let length ← readByte
    if length < 1 ∨ 20 < length then
      Cursor.fail (.error "QUIC NEW_CONNECTION_ID length is invalid")
    else do
      let connectionId ← readSlice length.toNat
      let statelessResetToken ← readSlice 16
      return .newConnectionId sequenceNumber retirePriorTo connectionId statelessResetToken

def decodePathData (response : Bool) : Decoder Frame := do
  let data ← readSlice 8
  return if response then .pathResponse data else .pathChallenge data

def decodeConnectionClose (applicationClose : Bool) : Decoder Frame := do
  let errorCode ← decodeVarInt
  let frameType ← readOptional !applicationClose
  let reasonLength ← decodeVarInt
  let reason ← readSlice reasonLength
  return .connectionClose applicationClose errorCode frameType reason

def decodeDatagram (hasLength : Bool) : Decoder Frame := do
  let length ← readLength hasLength
  let data ← readSlice length
  return .datagram data

def decodeBody (frameType : UInt8) : Decoder Frame :=
  if frameType = 0x00 then return .padding 1
  else if frameType = 0x01 then return .ping
  else if frameType = 0x02 ∨ frameType = 0x03 then decodeAck (frameType = 0x03)
  else if frameType = 0x04 then decodeResetStream
  else if frameType = 0x05 then decodeStopSending
  else if frameType = 0x06 then decodeCrypto
  else if frameType = 0x07 then decodeNewToken
  else if 0x08 ≤ frameType ∧ frameType ≤ 0x0f then decodeStream frameType
  else if frameType = 0x10 then decodeMaxData
  else if frameType = 0x11 then decodeMaxStreamData
  else if frameType = 0x12 ∨ frameType = 0x13 then decodeMaxStreams (frameType = 0x12)
  else if frameType = 0x14 then decodeDataBlocked
  else if frameType = 0x15 then decodeStreamDataBlocked
  else if frameType = 0x16 ∨ frameType = 0x17 then decodeStreamsBlocked (frameType = 0x16)
  else if frameType = 0x18 then decodeNewConnectionId
  else if frameType = 0x19 then decodeRetireConnectionId
  else if frameType = 0x1a then decodePathData false
  else if frameType = 0x1b then decodePathData true
  else if frameType = 0x1c ∨ frameType = 0x1d then decodeConnectionClose (frameType = 0x1d)
  else if frameType = 0x1e then return .handshakeDone
  else if frameType = 0x24 then decodeResetStreamAt
  else if frameType = 0x30 ∨ frameType = 0x31 then decodeDatagram (frameType = 0x31)
  else Cursor.fail (.error "Unsupported QUIC frame type")

def decodeFrame : Decoder Frame := do
  let frameType ← readByte
  decodeBody frameType

/-- One turn of the loop: a run of zero bytes is one PADDING frame. -/
def decodeNext : Decoder Frame := fun payload offset =>
  match payload[offset]? with
  | none => .error .outside
  | some first =>
    if first = 0 then
      let length := ((payload.drop offset).takeWhile (· = 0)).length
      .ok (.padding length, offset + length)
    else decodeFrame payload offset

def decodeFrames (payload : Bytes) : Except DecodeFailure (List Frame) :=
  decodeNext.untilEnd .unfinished payload payload.length 0

end SwStack.Quic
