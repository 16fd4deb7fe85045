import SwStack.WebSocket.Compression
import SwStack.WebSocket.Utf8
import SwStack.Types.ByteArray

/-! The frames that a connection receives after the handshake. Some violations of the protocol abort
the connection, others begin a closing handshake, during which the connection goes on reading. -/
namespace SwStack.WebSocket

open SwStack.Lib SwStack.Types

def opContinuation : UInt8 := 0x0

structure ReceivedFrame where
  opcode : UInt8
  fin : Bool
  rsv1 : Bool
  masked : Bool
  payload : Bytes

inductive ParsedFrame where
  | needMore (opcode : UInt8) (payloadLen : Nat)
  | invalid
  | frame (frame : ReceivedFrame) (rest : Bytes)

def bigEndian (bytes : Bytes) : Nat := bytes.foldl (fun value byte => value * 256 + byte.toNat) 0

/-- The length of a payload with what follows it; `none` when bytes are missing, and no length when
it is not in its shortest form. -/
def payloadLength (short : Nat) (rest : Bytes) : Option (Option Nat × Bytes) :=
  if short = 126 then
    if rest.length < 2 then none
    else
      let length := bigEndian (rest.take 2)
      some (if length < 126 then none else some length, rest.drop 2)
  else if short = 127 then
    if rest.length < 8 then none
    else
      let length := bigEndian (rest.take 8)
      some (if rest.getD 0 0 &&& 0x80 ≠ 0 ∨ length ≤ 65535 then none else some length, rest.drop 8)
  else some (some short, rest)

def unmask (key payload : Bytes) : Bytes :=
  payload.mapIdx fun index byte => byte ^^^ key.getD (index % 4) 0

/-- The mask and the payload. -/
def parsePayload (opcode : UInt8) (fin rsv1 masked : Bool) (payloadLen : Nat) (rest : Bytes) :
    ParsedFrame :=
  let key := if masked then rest.take 4 else []
  let body := if masked then rest.drop 4 else rest
  if masked && decide (rest.length < 4) then .needMore opcode payloadLen
  else if body.length < payloadLen then .needMore opcode payloadLen
  else if maxInt < payloadLen then .invalid
  else
    let payload := body.take payloadLen
    .frame { opcode, fin, rsv1, masked, payload := if masked then unmask key payload else payload }
      (body.drop payloadLen)

def isKnown (opcode : UInt8) : Bool :=
  opcode = opContinuation || opcode = opText || opcode = opBinary ||
    opcode = ControlOpcode.close.code || opcode = ControlOpcode.ping.code ||
    opcode = ControlOpcode.pong.code

def parseOneFrame (buffer : Bytes) (allowRsv1 : Bool) : ParsedFrame :=
  match buffer with
  | b0 :: b1 :: rest =>
    let fin : Bool := b0 &&& 0x80 ≠ 0
    let rsv1 : Bool := b0 &&& 0x40 ≠ 0
    let opcode := b0 &&& 0x0f
    let control : Bool := opcode &&& 0x08 ≠ 0
    if !isKnown opcode || decide (b0 &&& 0x30 ≠ 0) || (rsv1 && !allowRsv1) ||
        (control && (!fin || rsv1)) || (decide (opcode = opContinuation) && rsv1) then .invalid
    else
      match payloadLength (b1 &&& 0x7f).toNat rest with
      | none => .needMore opcode 0
      | some (none, _) => .invalid
      | some (some length, rest) =>
        if control && decide (125 < length) then .invalid
        else parsePayload opcode fin rsv1 (b1 &&& 0x80 ≠ 0) length rest
  | _ => .needMore 0 0

/-- What the application is told. -/
inductive Notice where
  | violation
  | message (opcode : UInt8) (payload : Bytes)
  deriving DecidableEq

/-- A connection after its handshake. `closing` is its state during the closing handshake. -/
structure Socket (Deflater Inflater : Type) where
  sender : Sender Deflater
  inflater : Inflater
  closing : Bool
  closeSent : Bool
  closeReceived : Bool
  closeAfterControlFlush : Bool
  maxIncomingMessageSize : Nat
  maxBufferedIncomingBytes : Nat
  readBudgetBytes : Nat
  frameParseBudget : Nat
  buffer : Bytes
  messageOpcode : Option UInt8
  messageBuffer : Bytes
  currentMessageCompressed : Bool
  notices : List Notice

def closeMessageTooBig : Nat := 1009
def closeProtocolError : Nat := 1002
def closeInvalidPayload : Nat := 1007

def isValidCloseCode (code : Nat) : Bool :=
  decide (1000 ≤ code) && decide (code ≠ 1004) && decide (code ≠ 1005) && decide (code ≠ 1006) &&
    decide (code ≠ 1015) && decide (code < 5000)

def closePayload (code : Nat) (reason : Bytes) : Bytes :=
  .ofNat (code / 256) :: .ofNat code :: if reason.length ≤ 123 then reason else []

namespace Socket

variable {Deflater Inflater : Type} (socket : Socket Deflater Inflater)

/-- The connection is gone, with all that was under way. -/
def abort : Socket Deflater Inflater :=
  { socket with
    sender := socket.sender.abort
    closing := false
    closeSent := false
    closeReceived := false
    closeAfterControlFlush := false
    buffer := []
    messageOpcode := none
    messageBuffer := [] }

def notify (notice : Notice) : Socket Deflater Inflater :=
  { socket with notices := socket.notices ++ [notice] }

def sendControlFrame (surroundings : Surroundings) (opcode : ControlOpcode) (payload : Bytes) :
    Socket Deflater Inflater :=
  let frame : Frame := { opcode := opcode.code, rsv1 := false, payload }
  { socket with sender := socket.sender.sendControlFrame surroundings frame }

def close (surroundings : Surroundings) (code : Nat) (reason : Bytes) :
    Socket Deflater Inflater :=
  if !socket.sender.connected || socket.closing then socket
  else
    let leaving := { socket with closing := true }
    let sent := leaving.sendControlFrame surroundings .close (closePayload code reason)
    { sent with closeSent := sent.sender.connected }

/-- A violation that begins a closing handshake. -/
def fail (surroundings : Surroundings) (code : Nat) : Socket Deflater Inflater :=
  (socket.notify .violation).close surroundings code []

/-- A violation that ends the connection. -/
def failHard : Socket Deflater Inflater := (socket.notify .violation).abort

def maybeFinishCloseReply (flushed : Bool) : Socket Deflater Inflater :=
  if socket.closeAfterControlFlush && socket.sender.connected &&
      socket.sender.pendingControlFrames.isEmpty && flushed then socket.abort
  else socket

/-- What the peer gives as its reason to close: whether it breaks the protocol, and our answer. -/
def closeAnswer (payload : Bytes) : Bool × Bytes :=
  let code := bigEndian (payload.take 2)
  if payload.length = 1 then (true, closePayload closeProtocolError [])
  else if payload.length = 0 then (false, payload)
  else if !isValidCloseCode code then (true, closePayload closeProtocolError [])
  else if !isValidUtf8 (payload.drop 2) then (true, closePayload closeInvalidPayload [])
  else (false, payload)

def takeClose (surroundings : Surroundings) (flushed : Bool) (payload : Bytes) :
    Socket Deflater Inflater :=
  let answer := closeAnswer payload
  let told := if answer.1 then socket.notify .violation else socket
  let received := { told with closeReceived := true }
  if received.closeSent then received.abort
  else
    let leaving := { received with closing := true }
    let sent := leaving.sendControlFrame surroundings .close answer.2
    if sent.sender.connected then
      let replied := { sent with closeSent := true, closeAfterControlFlush := true }
      replied.maybeFinishCloseReply flushed
    else sent

variable (inflate : Inflater → Bytes → Inflater × Inflated)

/-- A whole message, which may be compressed; whether it is handed on. -/
def deliver (surroundings : Surroundings) (opcode : UInt8) (compressed : Bool) (payload : Bytes) :
    Socket Deflater Inflater × Bool :=
  let inflated := if compressed then inflate socket.inflater payload
    else (socket.inflater, .message payload)
  let next := { socket with inflater := inflated.1 }
  match inflated.2 with
  | .failed => (next.fail surroundings closeProtocolError, false)
  | .tooLarge => (next.fail surroundings closeMessageTooBig, false)
  | .message message =>
    if decide (opcode = opText) && !isValidUtf8 message then
      (next.fail surroundings closeInvalidPayload, false)
    else (next.notify (.message opcode message), true)

def isTooBig (size : Nat) : Bool :=
  decide (0 < socket.maxIncomingMessageSize) && decide (socket.maxIncomingMessageSize < size)

/-- The message in fragments is complete. It is forgotten only when it is handed on. -/
def finalizeMessage (surroundings : Surroundings) : Socket Deflater Inflater × Bool :=
  let taken := if socket.currentMessageCompressed then socket else { socket with messageBuffer := [] }
  let delivered := taken.deliver inflate surroundings (socket.messageOpcode.getD 0)
    socket.currentMessageCompressed socket.messageBuffer
  if delivered.2 then
    ({ delivered.1 with
      messageOpcode := none, messageBuffer := [], currentMessageCompressed := false }, true)
  else delivered

def takeContinuation (surroundings : Surroundings) (frame : ReceivedFrame) :
    Socket Deflater Inflater × Bool :=
  if socket.messageOpcode.isNone then (socket.failHard, false)
  else
    let joined := { socket with messageBuffer := socket.messageBuffer ++ frame.payload }
    if joined.isTooBig joined.messageBuffer.length then
      (joined.fail surroundings closeMessageTooBig, false)
    else if frame.fin then joined.finalizeMessage inflate surroundings
    else (joined, true)

def takeData (surroundings : Surroundings) (frame : ReceivedFrame) :
    Socket Deflater Inflater × Bool :=
  if socket.messageOpcode.isSome then (socket.failHard, false)
  else
    let begun := if frame.fin then socket else
      { socket with
        messageOpcode := some frame.opcode
        messageBuffer := frame.payload
        currentMessageCompressed := frame.rsv1 }
    if socket.isTooBig frame.payload.length then
      (begun.fail surroundings closeMessageTooBig, false)
    else if frame.fin then
      begun.deliver inflate surroundings frame.opcode frame.rsv1 frame.payload
    else (begun, true)

/-- A frame is taken; whether the loop goes on. -/
def takeFrame (surroundings : Surroundings) (flushed : Bool) (frame : ReceivedFrame) :
    Socket Deflater Inflater × Bool :=
  if frame.masked = socket.sender.client then (socket.fail surroundings closeProtocolError, false)
  else if frame.opcode = ControlOpcode.ping.code then
    let answered := socket.sendControlFrame surroundings .pong frame.payload
    (answered, answered.sender.connected)
  else if frame.opcode = ControlOpcode.pong.code then (socket, true)
  else if frame.opcode = ControlOpcode.close.code then
    (socket.takeClose surroundings flushed frame.payload, false)
  else if frame.opcode = opContinuation then socket.takeContinuation inflate surroundings frame
  else socket.takeData inflate surroundings frame

/-- A frame whose payload is not there yet is refused when it would be too big. -/
def awaitFrame (surroundings : Surroundings) (opcode : UInt8) (payloadLen : Nat) :
    Socket Deflater Inflater :=
  let limit := socket.maxIncomingMessageSize
  if decide (0 < limit) &&
      (decide (opcode = opText) || decide (opcode = opBinary) || decide (opcode = opContinuation)) &&
      (decide (limit < payloadLen) || (decide (opcode = opContinuation) &&
        decide (limit - min socket.messageBuffer.length limit < payloadLen))) then
    socket.fail surroundings closeMessageTooBig
  else socket

/-- The loop over the frames of the buffer, with what each of its steps meets outside. -/
def processFrames (outside : Nat → Surroundings) (flushed : Bool) :
    Nat → Socket Deflater Inflater → Socket Deflater Inflater
  | 0, socket => socket
  | budget + 1, socket =>
    if socket.buffer = [] then socket
    else
      match parseOneFrame socket.buffer socket.sender.negotiated with
      | .needMore opcode payloadLen => socket.awaitFrame (outside budget) opcode payloadLen
      | .invalid => socket.failHard
      | .frame frame rest =>
        let left := { socket with buffer := rest }
        let taken := left.takeFrame inflate (outside budget) flushed frame
        if taken.2 then processFrames outside flushed budget taken.1 else taken.1

def effectiveIncomingBufferLimit : Nat :=
  if 0 < socket.maxBufferedIncomingBytes then socket.maxBufferedIncomingBytes
  else (if socket.maxIncomingMessageSize = 0 then 16 * 1024 * 1024
    else socket.maxIncomingMessageSize) + 64 * 1024

def room : Nat :=
  socket.effectiveIncomingBufferLimit - (socket.buffer.length + socket.messageBuffer.length)

/-- What there is to read is read up to the budget and the room. -/
def taken (available : Bytes) : Bytes := available.take (min socket.readBudgetBytes socket.room)

def readyRead (outside : Nat → Surroundings) (flushed : Bool) (available : Bytes) :
    Socket Deflater Inflater :=
  let length := (socket.taken available).length
  if !socket.sender.connected then socket
  else
    let read := { socket with buffer := socket.buffer ++ socket.taken available }
    if length = socket.room ∧ length < socket.readBudgetBytes then
      read.fail (outside 0) closeMessageTooBig
    else read.processFrames inflate outside flushed socket.frameParseBudget

variable (library : DeflateLibrary Deflater Inflater)

/-- A message of the application; during a closing handshake it is deflated for nothing. -/
def sendMessage (opcode : UInt8) (surroundings : Surroundings) (message : Bytes) :
    Socket Deflater Inflater :=
  if socket.closing then
    if 0 < socket.sender.maxOutgoingMessageSize ∧
        socket.sender.maxOutgoingMessageSize < message.length then socket
    else { socket with sender := (socket.sender.deflateMessage library message).1 }
  else { socket with sender := (socket.sender.sendMessage library opcode surroundings message).1 }

def pumpControlFrames (writes : List FrameWriteResult) (flushed : Bool) :
    Socket Deflater Inflater :=
  let pumped := { socket with sender := (socket.sender.pumpControlFrames writes).1 }
  pumped.maybeFinishCloseReply flushed

end Socket

/-- What happens to a connection: something to read, calls of the application, a socket that takes
more, the end of the wait for an answer to a Close frame, and the end of the connection. -/
inductive SocketEvent where
  | readyRead (outside : Nat → Surroundings) (flushed : Bool) (available : Bytes)
  | sendTextMessage (surroundings : Surroundings) (message : Bytes)
  | sendBinaryMessage (surroundings : Surroundings) (message : Bytes)
  | ping (surroundings : Surroundings) (payload : Bytes)
  | close (surroundings : Surroundings) (code : Nat) (reason : Bytes)
  | writable (writes : List FrameWriteResult) (flushed : Bool)
  | closeTimeout
  | disconnected

variable {Deflater Inflater : Type} (library : DeflateLibrary Deflater Inflater)
  (inflate : Inflater → Bytes → Inflater × Inflated)

def Socket.step (socket : Socket Deflater Inflater) : SocketEvent → Socket Deflater Inflater
  | .readyRead outside flushed available => socket.readyRead inflate outside flushed available
  | .sendTextMessage surroundings message => socket.sendMessage library opText surroundings message
  | .sendBinaryMessage surroundings message =>
    socket.sendMessage library opBinary surroundings message
  | .ping surroundings payload => socket.sendControlFrame surroundings .ping payload
  | .close surroundings code reason => socket.close surroundings code reason
  | .writable writes flushed => socket.pumpControlFrames writes flushed
  | .closeTimeout => if socket.closing then socket.abort else socket
  | .disconnected => socket.abort

end SwStack.WebSocket
