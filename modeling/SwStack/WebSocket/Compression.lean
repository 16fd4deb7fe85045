import SwStack.Lib.Reader
import SwStack.Lib.Transition

/-! Compressed messages on a connection. The sender deflates a message before it knows whether the
frame will be written; the receiver inflates the frames that were. The deflate library is a
parameter; both ends call it with room for some output until it is done. -/
namespace SwStack.WebSocket

open SwStack.Lib

inductive LibraryStatus where
  | ok
  | streamEnd
  | bufError
  | error
  deriving DecidableEq

/-- A call of the library: the stream after it, the input that was not taken, and the output. -/
structure LibraryCall (Stream : Type) where
  stream : Stream
  rest : Bytes
  output : Bytes
  status : LibraryStatus

/-- What becomes of a compressed message. -/
inductive Inflated where
  | message (payload : Bytes)
  | tooLarge
  | failed

/-- The streams of the deflate library, each with a bound on the calls that an input needs. A call
has input and room for output. -/
structure DeflateLibrary (Deflater Inflater : Type) where
  deflateInit : Option Deflater
  deflate : Deflater → Bytes → Nat → LibraryCall Deflater
  deflateCalls : Deflater → Bytes → Nat
  inflateInit : Option Inflater
  inflate : Inflater → Bytes → Nat → LibraryCall Inflater
  inflateCalls : Inflater → Bytes → Nat

def opText : UInt8 := 0x1

def opBinary : UInt8 := 0x2

inductive ControlOpcode where
  | close
  | ping
  | pong

def ControlOpcode.code : ControlOpcode → UInt8
  | close => 0x8
  | ping => 0x9
  | pong => 0xa

structure Frame where
  opcode : UInt8
  rsv1 : Bool
  payload : Bytes
  deriving DecidableEq

/-- The bytes that a frame takes on the wire. -/
def Frame.size (mask : Bool) (frame : Frame) : Nat :=
  2 + (if frame.payload.length ≤ 125 then 0 else if frame.payload.length ≤ 65535 then 2 else 8) +
    (if mask then 4 else 0) + frame.payload.length

inductive FrameWriteResult where
  | accepted
  | wouldBlock
  | failed
  deriving DecidableEq

/-- What a call meets outside: random bytes for the mask, and the answers of the socket. -/
structure Surroundings where
  entropy : Bool
  writes : List FrameWriteResult

structure Sender (Deflater : Type) where
  connected : Bool
  client : Bool
  negotiated : Bool
  outgoingNoContextTakeover : Bool
  maxOutgoingMessageSize : Nat
  maxPendingControlFrames : Nat
  maxPendingControlBytes : Nat
  deflater : Option Deflater
  pendingControlFrames : List Frame
  /-- The frames that the socket accepted. -/
  written : List Frame

variable {Deflater Inflater : Type} (library : DeflateLibrary Deflater Inflater)

def syncTail : Bytes := [0x00, 0x00, 0xff, 0xff]

/-- The output of a sync flush without its tail. -/
def withoutTail (output : Bytes) : Option Bytes :=
  if output.length < 4 then none
  else if output.drop (output.length - 4) ≠ syncTail then none
  else some (output.take (output.length - 4))

/-- `avail_in` is a 32-bit number. -/
def availableInput (input : Bytes) : Bytes := input.take (input.length % 2 ^ 32)

/-- The room that a call has for its output. -/
def outputRoom : Nat := 4096

namespace DeflateLibrary

/-- Deflates with a sync flush until a call leaves room. -/
def deflateRounds : Nat → Deflater → Bytes → Deflater × Option Bytes
  | 0, stream, _ => (stream, none)
  | calls + 1, stream, input =>
    let call := library.deflate stream input outputRoom
    if call.status ≠ .ok then (call.stream, none)
    else if call.output.length ≠ outputRoom then (call.stream, some call.output)
    else
      let (next, more) := deflateRounds calls call.stream call.rest
      (next, more.map (call.output ++ ·))

def deflateAll (stream : Deflater) (input : Bytes) : Deflater × Option Bytes :=
  let available := availableInput input
  library.deflateRounds (library.deflateCalls stream available + 1) stream available

/-- Inflates an input, and the tail of a sync flush once the input is taken. -/
def inflateRounds (maxIncomingMessageSize : Nat) :
    Nat → Inflater → Bytes → Bool → Bytes → Inflater × Inflated
  | 0, stream, _, _, _ => (stream, .failed)
  | calls + 1, stream, input, tailPending, result =>
    let given := if input = [] ∧ tailPending = true then syncTail else input
    let stillPending := tailPending && !input.isEmpty
    let call := library.inflate stream given outputRoom
    let joined := result ++ call.output
    if call.status = .error then (call.stream, .failed)
    else if 0 < maxIncomingMessageSize ∧ maxIncomingMessageSize < joined.length then
      (call.stream, .tooLarge)
    else if call.status = .streamEnd ∨ (call.rest = [] ∧ stillPending = false) ∨
        (call.status = .bufError ∧ call.output = []) then
      (call.stream, .message joined)
    else inflateRounds maxIncomingMessageSize calls call.stream call.rest stillPending joined

def inflateAll (maxIncomingMessageSize : Nat) (stream : Inflater) (compressed : Bytes) :
    Inflater × Inflated :=
  let available := availableInput compressed
  library.inflateRounds maxIncomingMessageSize
    (library.inflateCalls stream (available ++ syncTail) + 1) stream available true []

/-- What becomes of a compressed message, and of the stream that is kept. -/
def inflateMessage (incomingNoContextTakeover : Bool) (maxIncomingMessageSize : Nat)
    (inflater : Option Inflater) (compressed : Bytes) : Option Inflater × Inflated :=
  if incomingNoContextTakeover then
    match library.inflateInit with
    | none => (inflater, .failed)
    | some stream => (inflater, (library.inflateAll maxIncomingMessageSize stream compressed).2)
  else
    match inflater.or library.inflateInit with
    | none => (inflater, .failed)
    | some stream =>
      let (next, inflated) := library.inflateAll maxIncomingMessageSize stream compressed
      (some next, inflated)

end DeflateLibrary

namespace Sender

variable (sender : Sender Deflater)

def abort : Sender Deflater :=
  { sender with
    connected := false
    negotiated := false
    outgoingNoContextTakeover := true
    deflater := none
    pendingControlFrames := [] }

def deflateMessage (input : Bytes) : Sender Deflater × Option Bytes :=
  if !sender.negotiated then (sender, none)
  else if sender.outgoingNoContextTakeover then
    match library.deflateInit with
    | none => (sender, none)
    | some stream => (sender, (library.deflateAll stream input).2.bind withoutTail)
  else
    match sender.deflater.or library.deflateInit with
    | none => (sender, none)
    | some stream =>
      let (next, output) := library.deflateAll stream input
      ({ sender with deflater := some next }, output.bind withoutTail)

/-- Control frames the socket takes, those it leaves, its further answers, and whether it failed. -/
def pump (writes : List FrameWriteResult) :
    List Frame → List Frame × List Frame × List FrameWriteResult × Bool
  | [] => ([], [], writes, false)
  | frame :: rest =>
    match writes with
    | .accepted :: more =>
      let (taken, left, others, failed) := pump more rest
      (frame :: taken, left, others, failed)
    | .wouldBlock :: more => ([], frame :: rest, more, false)
    | .failed :: more => ([], frame :: rest, more, true)
    | [] => ([], frame :: rest, [], true)

def pumpControlFrames (writes : List FrameWriteResult) :
    Sender Deflater × List FrameWriteResult :=
  let (taken, left, others, failed) := pump writes sender.pendingControlFrames
  let pumped :=
    { sender with written := sender.written ++ taken, pendingControlFrames := left }
  (if failed then pumped.abort else pumped, others)

/-- Writes a data frame, and whether it was written. -/
def sendDataFrame (surroundings : Surroundings) (frame : Frame) : Sender Deflater × Bool :=
  if !sender.connected then (sender, false)
  else
    let (pumped, writes) := sender.pumpControlFrames surroundings.writes
    if !pumped.connected || !pumped.pendingControlFrames.isEmpty then (pumped, false)
    else if pumped.client && !surroundings.entropy then (pumped.abort, false)
    else if writes.head? = some .accepted then
      ({ pumped with written := pumped.written ++ [frame] }, true)
    else (pumped, false)

/-- `sendTextMessage` and `sendBinaryMessage`, by the opcode. -/
def sendMessage (opcode : UInt8) (surroundings : Surroundings) (message : Bytes) :
    Sender Deflater × Bool :=
  if 0 < sender.maxOutgoingMessageSize ∧ sender.maxOutgoingMessageSize < message.length then
    (sender, false)
  else if sender.negotiated then
    match sender.deflateMessage library message with
    | (next, none) => (next, false)
    | (next, some compressed) =>
      next.sendDataFrame surroundings { opcode, rsv1 := true, payload := compressed }
  else sender.sendDataFrame surroundings { opcode, rsv1 := false, payload := message }

def sendTextMessage (surroundings : Surroundings) (message : Bytes) : Sender Deflater × Bool :=
  sender.sendMessage library opText surroundings message

def sendBinaryMessage (surroundings : Surroundings) (message : Bytes) : Sender Deflater × Bool :=
  sender.sendMessage library opBinary surroundings message

def queuedBytes : Nat := (sender.pendingControlFrames.map (Frame.size sender.client)).sum

def queueControlFrame (frame : Frame) : Sender Deflater :=
  if sender.maxPendingControlFrames ≤ sender.pendingControlFrames.length ∨
      sender.maxPendingControlBytes - min sender.queuedBytes sender.maxPendingControlBytes <
        frame.size sender.client then
    sender.abort
  else { sender with pendingControlFrames := sender.pendingControlFrames ++ [frame] }

def sendControlFrame (surroundings : Surroundings) (frame : Frame) : Sender Deflater :=
  if !sender.connected ∨ 125 < frame.payload.length then sender
  else if sender.client && !surroundings.entropy then sender.abort
  else if sender.pendingControlFrames.isEmpty then
    match surroundings.writes.head? with
    | some .accepted => { sender with written := sender.written ++ [frame] }
    | some .wouldBlock => sender.queueControlFrame frame
    | some .failed | none => sender.abort
  else sender.queueControlFrame frame

end Sender

/-- Whether the socket takes every queued control frame and then one frame more. -/
def Sender.admits (sender : Sender Deflater) (surroundings : Surroundings) : Bool :=
  let (_, left, others, failed) := Sender.pump surroundings.writes sender.pendingControlFrames
  sender.connected && left.isEmpty && !failed && (!sender.client || surroundings.entropy) &&
    others.head? = some .accepted

/-- Calls of the application, control frames of the protocol, and the socket that takes more. -/
inductive Action where
  | sendTextMessage (surroundings : Surroundings) (message : Bytes)
  | sendBinaryMessage (surroundings : Surroundings) (message : Bytes)
  | sendControlFrame (surroundings : Surroundings) (opcode : ControlOpcode) (payload : Bytes)
  | pumpControlFrames (surroundings : Surroundings)

/-- A sender with the messages whose calls reported success. -/
structure Sending (Deflater : Type) where
  sender : Sender Deflater
  sent : List (UInt8 × Bytes)

def Sending.record (sending : Sending Deflater) (opcode : UInt8) (message : Bytes)
    (result : Sender Deflater × Bool) : Sending Deflater :=
  { sender := result.1
    sent := if result.2 then sending.sent ++ [(opcode, message)] else sending.sent }

def step (sending : Sending Deflater) : Action → Sending Deflater
  | .sendTextMessage surroundings message =>
    sending.record opText message (sending.sender.sendTextMessage library surroundings message)
  | .sendBinaryMessage surroundings message =>
    sending.record opBinary message (sending.sender.sendBinaryMessage library surroundings message)
  | .sendControlFrame surroundings opcode payload =>
    { sending with
      sender := sending.sender.sendControlFrame surroundings
        { opcode := opcode.code, rsv1 := false, payload } }
  | .pumpControlFrames surroundings =>
    { sending with sender := (sending.sender.pumpControlFrames surroundings.writes).1 }

end SwStack.WebSocket
