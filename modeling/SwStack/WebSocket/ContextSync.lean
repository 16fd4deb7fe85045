import SwStack.WebSocket.LibraryCalls
import SwStack.WebSocket.Frames

/-! The contexts of the two ends. They stay equal as long as what is deflated is also written;
without context takeover every message starts from fresh streams. -/
namespace SwStack.WebSocket

open SwStack.Lib SwStack.Types List

variable {Deflater Inflater : Type} {library : DeflateLibrary Deflater Inflater}
  {same : Deflater → Inflater → Prop}

theorem withoutTail_append (body : Bytes) : withoutTail (body ++ syncTail) = some body := by
  have size : (body ++ syncTail).length = body.length + 4 := by
    rw [length_append]
    rfl
  have tail : (body ++ syncTail).drop ((body ++ syncTail).length - 4) = syncTail := by
    rw [size, Nat.add_sub_cancel, drop_left]
  have front : (body ++ syncTail).take ((body ++ syncTail).length - 4) = body := by
    rw [size, Nat.add_sub_cancel, take_left]
  rw [withoutTail, if_neg (by omega), if_neg (not_not.mpr tail), front]

theorem pump_split (writes : List FrameWriteResult) (pending : List Frame) :
    pending = (Sender.pump writes pending).1 ++ (Sender.pump writes pending).2.1 := by
  induction pending generalizing writes with
  | nil => cases writes <;> rfl
  | cons frame rest ih =>
    cases writes with
    | nil => rfl
    | cons result more =>
      cases result with
      | accepted =>
        rw [Sender.pump]
        exact congrArg (frame :: ·) (ih more)
      | wouldBlock => rfl
      | failed => rfl

def Frame.isControl (frame : Frame) : Bool := frame.opcode &&& 0x8 ≠ 0

theorem control_code (opcode : ControlOpcode) (payload : Bytes) :
    Frame.isControl { opcode := opcode.code, rsv1 := false, payload } = true := by
  have high : opcode.code &&& 0x8 ≠ 0 := by cases opcode <;> decide
  exact decide_eq_true high

/-- The other end of a connection, with the stream that it keeps. -/
abbrev Receiver (Deflater Inflater : Type) := Socket Deflater (Option Inflater)

namespace Receiver

/-- A written frame arrives. Control frames are left aside: they touch no message and no stream. -/
def receive (library : DeflateLibrary Deflater Inflater) (incomingNoContextTakeover : Bool)
    (outside : Surroundings) (receiver : Receiver Deflater Inflater) (frame : Frame) :
    Receiver Deflater Inflater :=
  if frame.isControl then receiver
  else if maxInt < frame.payload.length then receiver.failHard
  else
    (receiver.takeData
      (library.inflateMessage incomingNoContextTakeover receiver.maxIncomingMessageSize) outside
      { opcode := frame.opcode
        fin := true
        rsv1 := frame.rsv1
        masked := !receiver.sender.client
        payload := frame.payload }).1

variable {receiver : Receiver Deflater Inflater} {noContextTakeover : Bool}
  {outside : Surroundings}

theorem receive_controls {frames : List Frame}
    (controls : ∀ frame ∈ frames, frame.isControl = true) :
    frames.foldl (receive library noContextTakeover outside) receiver = receiver := by
  induction frames with
  | nil => rfl
  | cons frame frames ih =>
    rw [foldl_cons, receive, if_pos (controls frame mem_cons_self)]
    exact ih fun other later => controls other (mem_cons_of_mem _ later)

/-- Whether the other end takes a message in a payload of a size. -/
def Suits (maxIncomingMessageSize : Nat) (opcode : UInt8) (message : Bytes) (size : Nat) : Prop :=
  size ≤ maxInt ∧
    (0 < maxIncomingMessageSize →
      size ≤ maxIncomingMessageSize ∧ message.length ≤ maxIncomingMessageSize) ∧
    (opcode = opText → isValidUtf8 message = true)

theorem receive_message {frame : Frame} (between : receiver.messageOpcode = none)
    (data : frame.isControl = false)
    (suits : Suits receiver.maxIncomingMessageSize frame.opcode message frame.payload.length)
    (inflated : (if frame.rsv1 = true then
        library.inflateMessage noContextTakeover receiver.maxIncomingMessageSize receiver.inflater
          frame.payload
      else (receiver.inflater, .message frame.payload)) = (stream, Inflated.message message)) :
    receiver.receive library noContextTakeover outside frame =
      { receiver with
        inflater := stream
        notices := receiver.notices ++ [.message frame.opcode message] } := by
  obtain ⟨short, small, valid⟩ := suits
  have fits : receiver.isTooBig frame.payload.length = false := by
    rw [Socket.isTooBig, Bool.and_eq_false_iff, decide_eq_false_iff_not, decide_eq_false_iff_not]
    by_cases limited : 0 < receiver.maxIncomingMessageSize
    · exact .inr (not_lt.mpr (small limited).1)
    · exact .inl limited
  have whole : (decide (frame.opcode = opText) && !isValidUtf8 message) = false := by
    by_cases text : frame.opcode = opText
    · rw [valid text, Bool.not_true, Bool.and_false]
    · rw [decide_eq_false text, Bool.false_and]
  rw [receive, data, if_neg Bool.false_ne_true, if_neg (not_lt.mpr short), Socket.takeData,
    if_neg (by simp [between])]
  dsimp only
  rw [if_pos rfl, fits, if_neg Bool.false_ne_true, if_pos rfl, Socket.deliver, inflated]
  dsimp only
  rw [whole, if_neg Bool.false_ne_true]
  rfl

end Receiver

/-- The streams of the two ends carry equal contexts. -/
def SameStreams (same : Deflater → Inflater → Prop) :
    Option Deflater → Option Inflater → Prop
  | none, none => True
  | some stream, some other => same stream other
  | _, _ => False

/-- A message as the application is told of it. -/
def Sending.notices (sending : Sending Deflater) : List Notice :=
  sending.sent.map fun message => .message message.1 message.2

/-- What holds between a sender and the receiver of all it has written. -/
structure InStep (same : Deflater → Inflater → Prop) (noContextTakeover : Bool) (limit : Nat)
    (sending : Sending Deflater) (receiver : Receiver Deflater Inflater) : Prop where
  notices : receiver.notices = sending.notices
  between : receiver.messageOpcode = none
  limit : receiver.maxIncomingMessageSize = limit
  controls : ∀ frame ∈ sending.sender.pendingControlFrames, frame.isControl = true
  mode : sending.sender.connected = true → sending.sender.negotiated = true →
    sending.sender.outgoingNoContextTakeover = noContextTakeover
  streams : sending.sender.connected = true → sending.sender.negotiated = true →
    sending.sender.outgoingNoContextTakeover = false →
    SameStreams same sending.sender.deflater receiver.inflater

variable {sending : Sending Deflater} {receiver : Receiver Deflater Inflater}
  {noContextTakeover : Bool} {limit : Nat} {outside : Surroundings} {frame : Frame}

theorem InStep.offline (inStep : InStep same noContextTakeover limit sending receiver)
    (offline : sender.connected = false)
    (controls : ∀ frame ∈ sender.pendingControlFrames, frame.isControl = true) :
    InStep same noContextTakeover limit { sending with sender := sender } receiver where
  notices := inStep.notices
  between := inStep.between
  limit := inStep.limit
  controls := controls
  mode connected := Bool.noConfusion (offline.symm.trans connected)
  streams connected := Bool.noConfusion (offline.symm.trans connected)

theorem InStep.abort (inStep : InStep same noContextTakeover limit sending receiver)
    {sender : Sender Deflater} :
    InStep same noContextTakeover limit { sending with sender := sender.abort } receiver :=
  inStep.offline rfl fun _ member => absurd member not_mem_nil

/-- A sender that differs in its queue and in what was written only. -/
structure SameContext (before after : Sender Deflater) : Prop where
  connected : after.connected = before.connected
  negotiated : after.negotiated = before.negotiated
  outgoingNoContextTakeover :
    after.outgoingNoContextTakeover = before.outgoingNoContextTakeover
  deflater : after.deflater = before.deflater

theorem InStep.of_sameContext (inStep : InStep same noContextTakeover limit sending receiver)
    {after : Sender Deflater} (context : SameContext sending.sender after)
    (controls : ∀ frame ∈ after.pendingControlFrames, frame.isControl = true) :
    InStep same noContextTakeover limit { sending with sender := after } receiver where
  notices := inStep.notices
  between := inStep.between
  limit := inStep.limit
  controls := controls
  mode connected negotiated := by
    rw [context.connected] at connected
    rw [context.negotiated] at negotiated
    rw [context.outgoingNoContextTakeover]
    exact inStep.mode connected negotiated
  streams connected negotiated takeover := by
    rw [context.connected] at connected
    rw [context.negotiated] at negotiated
    rw [context.outgoingNoContextTakeover] at takeover
    rw [context.deflater]
    exact inStep.streams connected negotiated takeover

/-- The sender after the socket took some of the queued control frames. -/
def Sender.taking (sender : Sender Deflater) (taken left : List Frame) : Sender Deflater :=
  { sender with written := sender.written ++ taken, pendingControlFrames := left }

/-- Whether a call ends the connection: the socket fails on a control frame, or the mask has no
random bytes. -/
def Sender.breaks (sender : Sender Deflater) (surroundings : Surroundings) : Bool :=
  let (_, left, _, failed) := Sender.pump surroundings.writes sender.pendingControlFrames
  failed || (left.isEmpty && sender.client && !surroundings.entropy)

theorem pumpControlFrames_taking (sender : Sender Deflater) (writes : List FrameWriteResult) :
    ∃ taken left, sender.pendingControlFrames = taken ++ left ∧
      ((sender.pumpControlFrames writes).1 = sender.taking taken left ∨
        (sender.pumpControlFrames writes).1 = (sender.taking taken left).abort) := by
  refine ⟨_, _, pump_split writes sender.pendingControlFrames, ?_⟩
  rw [Sender.pumpControlFrames]
  dsimp only
  split
  · exact Or.inr rfl
  · exact Or.inl rfl

/-- A data frame is written, or it ends the connection, or it is refused. -/
theorem sendDataFrame_cases (sender : Sender Deflater) (surroundings : Surroundings)
    (frame : Frame) (connected : sender.connected = true) :
    ∃ taken left, sender.pendingControlFrames = taken ++ left ∧
      ((sender.admits surroundings = true ∧ left = [] ∧
          sender.sendDataFrame surroundings frame = (sender.taking (taken ++ [frame]) [], true)) ∨
        (sender.admits surroundings = false ∧ sender.breaks surroundings = true ∧
          sender.sendDataFrame surroundings frame = ((sender.taking taken left).abort, false)) ∨
        (sender.admits surroundings = false ∧ sender.breaks surroundings = false ∧
          sender.sendDataFrame surroundings frame = (sender.taking taken left, false))) := by
  refine ⟨_, _, pump_split surroundings.writes sender.pendingControlFrames, ?_⟩
  rw [Sender.sendDataFrame, if_neg (by simp [connected]), Sender.pumpControlFrames]
  unfold Sender.admits Sender.breaks
  generalize Sender.pump surroundings.writes sender.pendingControlFrames = pumped
  obtain ⟨taken, left, others, failed⟩ := pumped
  cases failed with
  | true => simp [Sender.abort, Sender.taking]
  | false =>
    cases left with
    | cons first rest => simp [Sender.taking, connected]
    | nil =>
      by_cases mask : sender.client = true ∧ surroundings.entropy = false
      · simp [Sender.abort, Sender.taking, connected, mask.1, mask.2]
      · by_cases accepted : others.head? = some .accepted
        · cases client : sender.client <;> cases entropy : surroundings.entropy <;>
            simp_all [Sender.taking]
        · cases client : sender.client <;> cases entropy : surroundings.entropy <;>
            simp_all [Sender.taking]

/-- The stream that deflates the next message. -/
def Sender.stream (library : DeflateLibrary Deflater Inflater) (sender : Sender Deflater) :
    Option Deflater :=
  if sender.outgoingNoContextTakeover then library.deflateInit
  else sender.deflater.or library.deflateInit

/-- The sender after a stream deflated: without context takeover the stream is dropped. -/
def Sender.keeping (sender : Sender Deflater) (stream : Deflater) : Sender Deflater :=
  if sender.outgoingNoContextTakeover then sender else { sender with deflater := some stream }

theorem deflateMessage_eq (sender : Sender Deflater) (input : Bytes)
    (negotiated : sender.negotiated = true) :
    sender.deflateMessage library input =
      match sender.stream library with
      | none => (sender, none)
      | some stream =>
        (sender.keeping (library.deflateAll stream input).1,
          (library.deflateAll stream input).2.bind withoutTail) := by
  rw [Sender.deflateMessage, if_neg (by simp [negotiated]), Sender.stream]
  unfold Sender.keeping
  cases sender.outgoingNoContextTakeover with
  | true => rfl
  | false => rfl

/-- What the receiver is after all frames written so far. -/
def replay (library : DeflateLibrary Deflater Inflater) (noContextTakeover : Bool)
    (outside : Surroundings) (start : Receiver Deflater Inflater) (written : List Frame) :
    Receiver Deflater Inflater :=
  written.foldl (Receiver.receive library noContextTakeover outside) start

variable {start : Receiver Deflater Inflater}

theorem replay_controls {written taken : List Frame}
    (controls : ∀ frame ∈ taken, frame.isControl = true) :
    replay library noContextTakeover outside start (written ++ taken) =
      replay library noContextTakeover outside start written := by
  rw [replay, foldl_append]
  exact Receiver.receive_controls controls

/-- The receiver of all that was written is in step. -/
def Delivers (library : DeflateLibrary Deflater Inflater) (same : Deflater → Inflater → Prop)
    (noContextTakeover : Bool) (outside : Surroundings) (start : Receiver Deflater Inflater)
    (sending : Sending Deflater) : Prop :=
  InStep same noContextTakeover start.maxIncomingMessageSize sending
    (replay library noContextTakeover outside start sending.sender.written)

theorem sameContext_taking (sender : Sender Deflater) (taken left : List Frame) :
    SameContext sender (sender.taking taken left) := ⟨rfl, rfl, rfl, rfl⟩

theorem Delivers.taking (delivers : Delivers library same noContextTakeover outside start sending)
    {taken left : List Frame} (split : sending.sender.pendingControlFrames = taken ++ left) :
    Delivers library same noContextTakeover outside start
      { sending with sender := sending.sender.taking taken left } := by
  have member : ∀ frame ∈ taken ++ left, frame.isControl = true := by
    rw [← split]
    exact delivers.controls
  have heard : replay library noContextTakeover outside start
        (sending.sender.taking taken left).written =
      replay library noContextTakeover outside start sending.sender.written :=
    replay_controls fun frame queued => member frame (mem_append_left _ queued)
  rw [Delivers, heard]
  exact InStep.of_sameContext delivers (sameContext_taking _ _ _)
    fun frame queued => member frame (mem_append_right _ queued)

theorem Delivers.pumpControlFrames
    (delivers : Delivers library same noContextTakeover outside start sending)
    (writes : List FrameWriteResult) :
    Delivers library same noContextTakeover outside start
      { sending with sender := (sending.sender.pumpControlFrames writes).1 } := by
  obtain ⟨taken, left, split, pumped | aborted⟩ := pumpControlFrames_taking sending.sender writes
  · rw [pumped]
    exact delivers.taking split
  · rw [aborted]
    exact InStep.abort (delivers.taking split)

theorem InStep.queueControlFrame (inStep : InStep same noContextTakeover limit sending receiver)
    (control : frame.isControl = true) :
    InStep same noContextTakeover limit
      { sending with sender := sending.sender.queueControlFrame frame } receiver := by
  rw [Sender.queueControlFrame]
  split
  · exact inStep.abort
  · refine inStep.of_sameContext ⟨rfl, rfl, rfl, rfl⟩ fun other queued => ?_
    cases mem_append.mp queued with
    | inl earlier => exact inStep.controls other earlier
    | inr last => exact mem_singleton.mp last ▸ control

theorem queueControlFrame_written (sender : Sender Deflater) (frame : Frame) :
    (sender.queueControlFrame frame).written = sender.written := by
  rw [Sender.queueControlFrame]
  split
  · rfl
  · rfl

theorem Delivers.sendControlFrame
    (delivers : Delivers library same noContextTakeover outside start sending)
    (surroundings : Surroundings) (control : frame.isControl = true) :
    Delivers library same noContextTakeover outside start
      { sending with sender := sending.sender.sendControlFrame surroundings frame } := by
  have queued : Delivers library same noContextTakeover outside start
      { sending with sender := sending.sender.queueControlFrame frame } := by
    rw [Delivers, queueControlFrame_written]
    exact InStep.queueControlFrame delivers control
  rw [Sender.sendControlFrame]
  split
  · exact delivers
  split
  · exact InStep.abort delivers
  split
  · split
    · have context : SameContext sending.sender
          { sending.sender with written := sending.sender.written ++ [frame] } :=
        ⟨rfl, rfl, rfl, rfl⟩
      have heard : replay library noContextTakeover outside start
            (sending.sender.written ++ [frame]) =
          replay library noContextTakeover outside start sending.sender.written :=
        replay_controls fun other only => mem_singleton.mp only ▸ control
      rw [Delivers, heard]
      exact InStep.of_sameContext delivers context delivers.controls
    · exact queued
    · exact InStep.abort delivers
    · exact InStep.abort delivers
  · exact queued

/-- A data frame is sent for a message: it is enough that the contexts agree when it is refused, and
that the receiver understands it when it is written. -/
theorem Delivers.sendDataFrame
    (delivers : Delivers library same noContextTakeover outside start sending)
    {next : Sender Deflater} (written : next.written = sending.sender.written)
    (queue : next.pendingControlFrames = sending.sender.pendingControlFrames)
    (refused : next.connected = true → next.admits surroundings = false →
      next.breaks surroundings = false →
      InStep same noContextTakeover start.maxIncomingMessageSize { sending with sender := next }
        (replay library noContextTakeover outside start sending.sender.written))
    (accepted : next.connected = true → next.admits surroundings = true →
      InStep same noContextTakeover start.maxIncomingMessageSize
        { sender := next, sent := sending.sent ++ [(opcode, message)] }
        ((replay library noContextTakeover outside start sending.sender.written).receive library
          noContextTakeover outside frame)) :
    Delivers library same noContextTakeover outside start
      (sending.record opcode message (next.sendDataFrame surroundings frame)) := by
  have controls := delivers.controls
  rw [← queue] at controls
  cases connected : next.connected with
  | false =>
    have idle : next.sendDataFrame surroundings frame = (next, false) := by
      rw [Sender.sendDataFrame, if_pos (by simp [connected])]
    rw [idle, Delivers, Sending.record]
    dsimp only
    rw [written]
    exact InStep.offline delivers connected controls
  | true =>
    obtain ⟨taken, left, split, answer⟩ := sendDataFrame_cases next surroundings frame connected
    have heard : ∀ frame ∈ taken, frame.isControl = true := by
      intro other queued
      exact controls other (split ▸ mem_append_left _ queued)
    have offered : replay library noContextTakeover outside start (next.written ++ taken) =
        replay library noContextTakeover outside start sending.sender.written := by
      rw [replay_controls heard, written]
    obtain ⟨admitted, _, sent⟩ | ⟨_, _, sent⟩ | ⟨blocked, alive, sent⟩ := answer
    · have after : replay library noContextTakeover outside start
            (next.taking (taken ++ [frame]) []).written =
          (replay library noContextTakeover outside start sending.sender.written).receive library
            noContextTakeover outside frame := by
        rw [← offered]
        simp only [Sender.taking, replay, ← append_assoc, foldl_append, foldl_cons, foldl_nil]
      rw [sent, Delivers, Sending.record]
      dsimp only
      rw [after]
      exact (accepted connected admitted).of_sameContext (sameContext_taking _ _ _)
        fun _ empty => absurd empty not_mem_nil
    · have after : replay library noContextTakeover outside start
            (next.taking taken left).abort.written =
          replay library noContextTakeover outside start sending.sender.written := offered
      rw [sent, Delivers, Sending.record]
      dsimp only
      rw [after]
      exact InStep.abort delivers
    · have after : replay library noContextTakeover outside start
            (next.taking taken left).written =
          replay library noContextTakeover outside start sending.sender.written := offered
      rw [sent, Delivers, Sending.record]
      dsimp only
      rw [after]
      exact (refused connected blocked alive).of_sameContext (sameContext_taking _ _ _)
        fun other queued => controls other (split ▸ mem_append_right _ queued)

end SwStack.WebSocket
