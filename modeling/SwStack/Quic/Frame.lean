import SwStack.Lib.Reader

/-! QUIC frames, how they are classified for acknowledgement and retransmission, and
the size the codec gives them. -/
namespace SwStack.Quic

open SwStack.Lib

inductive Level where
  | initial
  | handshake
  | application
  deriving DecidableEq

structure AckRange where
  gap : Nat
  rangeLength : Nat
  deriving DecidableEq

structure EcnCounts where
  ect0 : Nat
  ect1 : Nat
  ecnCe : Nat
  deriving DecidableEq

inductive Frame where
  | padding (length : Nat)
  | ping
  | ack (largestAcknowledged ackDelay firstAckRange : Nat) (ackRanges : List AckRange)
      (ecn : Option EcnCounts)
  | resetStream (streamId errorCode finalSize : Nat)
  | resetStreamAt (streamId errorCode finalSize reliableSize : Nat)
  | stopSending (streamId errorCode : Nat)
  | crypto (offset : Nat) (data : Bytes)
  | newToken (data : Bytes)
  | stream (streamId offset : Nat) (data : Bytes) (fin : Bool)
  | maxData (maximum : Nat)
  | maxStreamData (streamId maximum : Nat)
  | maxStreams (bidirectional : Bool) (maximum : Nat)
  | dataBlocked (maximum : Nat)
  | streamDataBlocked (streamId maximum : Nat)
  | streamsBlocked (bidirectional : Bool) (maximum : Nat)
  | newConnectionId (sequenceNumber retirePriorTo : Nat) (connectionId statelessResetToken : Bytes)
  | retireConnectionId (sequenceNumber : Nat)
  | pathChallenge (data : Bytes)
  | pathResponse (data : Bytes)
  | connectionClose (applicationClose : Bool) (errorCode errorFrameType : Nat)
      (reasonPhrase : Bytes)
  | handshakeDone
  | datagram (data : Bytes)
  deriving DecidableEq

/-- The largest value of a variable-length integer. -/
def maxVarInt : Nat := 2 ^ 62 - 1

def varIntSize (value : Nat) : Nat :=
  if value ≤ 0x3f then 1
  else if value ≤ 0x3fff then 2
  else if value ≤ 0x3fffffff then 4
  else if value ≤ maxVarInt then 8
  else 0

def encodeVarInts (values : List Nat) : Except String Nat :=
  if values.all (· ≤ maxVarInt) then .ok (values.map varIntSize).sum
  else .error "QUIC variable integer is too large"

namespace Frame

def isAckEliciting : Frame → Bool
  | .ack .. | .padding .. | .connectionClose .. => false
  | _ => true

def isRetransmittable : Frame → Bool
  | .ack .. | .padding .. | .ping | .connectionClose .. | .datagram .. | .pathResponse .. => false
  | _ => true

def isPathFrame : Frame → Bool
  | .pathChallenge .. | .pathResponse .. => true
  | _ => false

def isDatagram : Frame → Bool
  | .datagram .. => true
  | _ => false

def dataSize : Frame → Nat
  | .crypto _ data | .newToken data | .stream _ _ data _ | .pathChallenge data
  | .pathResponse data | .datagram data => data.length
  | _ => 0

/-- The number of bytes `encodeFrame` appends. -/
def encode : Frame → Except String Nat
  | .padding length => .ok length
  | .ping | .handshakeDone => .ok 1
  | .ack largest delay first ranges ecn => do
    let head ← encodeVarInts [largest, delay, ranges.length, first]
    let body ← encodeVarInts (ranges.flatMap fun range => [range.gap, range.rangeLength])
    let tail ← match ecn with
      | some counts => encodeVarInts [counts.ect0, counts.ect1, counts.ecnCe]
      | none => .ok 0
    return 1 + head + body + tail
  | .resetStream streamId errorCode finalSize =>
    return 1 + (← encodeVarInts [streamId, errorCode, finalSize])
  | .resetStreamAt streamId errorCode finalSize reliableSize =>
    return 1 + (← encodeVarInts [streamId, errorCode, finalSize, reliableSize])
  | .stopSending streamId errorCode => return 1 + (← encodeVarInts [streamId, errorCode])
  | .crypto offset data => return 1 + (← encodeVarInts [offset, data.length]) + data.length
  | .newToken data => return 1 + (← encodeVarInts [data.length]) + data.length
  | .stream streamId offset data _ => do
    let header ← encodeVarInts
      (streamId :: ((if 0 < offset then [offset] else []) ++ [data.length]))
    return 1 + header + data.length
  | .maxData maximum | .maxStreams _ maximum | .dataBlocked maximum | .streamsBlocked _ maximum =>
    return 1 + (← encodeVarInts [maximum])
  | .maxStreamData streamId maximum | .streamDataBlocked streamId maximum =>
    return 1 + (← encodeVarInts [streamId, maximum])
  | .newConnectionId sequenceNumber retirePriorTo connectionId token => do
    if connectionId.length < 1 ∨ 20 < connectionId.length then
      throw "QUIC NEW_CONNECTION_ID length is invalid"
    if token.length ≠ 16 then
      throw "QUIC NEW_CONNECTION_ID stateless reset token must be 16 bytes"
    let header ← encodeVarInts [sequenceNumber, retirePriorTo]
    return 1 + header + 1 + connectionId.length + token.length
  | .retireConnectionId sequenceNumber => return 1 + (← encodeVarInts [sequenceNumber])
  | .pathChallenge data | .pathResponse data =>
    if data.length = 8 then .ok 9
    else .error "QUIC PATH_CHALLENGE/PATH_RESPONSE must carry 8 bytes"
  | .connectionClose applicationClose errorCode errorFrameType reason => do
    let header ← encodeVarInts
      (errorCode :: ((if applicationClose then [] else [errorFrameType]) ++ [reason.length]))
    return 1 + header + reason.length
  | .datagram data => return 1 + (← encodeVarInts [data.length]) + data.length

def encodeAll (frames : List Frame) : Except String Nat :=
  frames.foldlM (fun size frame => return size + (← frame.encode)) 0

/-- The size a frame is packed under. A frame that cannot be encoded counts 64 bytes
here and is refused when the packet is encoded. -/
def encodedSize : Frame → Nat
  | .datagram data => 1 + varIntSize data.length + data.length
  | frame => match frame.encode with
    | .ok size => size
    | .error _ => 64

theorem isAckEliciting_of_isRetransmittable {frame : Frame}
    (retransmittable : frame.isRetransmittable = true) : frame.isAckEliciting = true := by
  cases frame <;> first | rfl | cases retransmittable

end Frame
end SwStack.Quic
