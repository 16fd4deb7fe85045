import SwStack.WebSocket.ContextSync

/-! Whole runs of a compressed connection: every message whose call reported success arrives, as
long as no message is refused after it advanced a context. -/
namespace SwStack.WebSocket

open SwStack.Lib

variable {Deflater Inflater : Type} {library : DeflateLibrary Deflater Inflater}
  {same : Deflater → Inflater → Prop} {Flushed : Deflater → Prop} {noContextTakeover : Bool}
  {limit : Nat} {outside : Surroundings} {sending : Sending Deflater}
  {receiver start : Receiver Deflater Inflater}

/-- The stream that inflates the next message. -/
def Receiver.stream (library : DeflateLibrary Deflater Inflater) (noContextTakeover : Bool)
    (inflater : Option Inflater) : Option Inflater :=
  if noContextTakeover then library.inflateInit else inflater.or library.inflateInit

theorem inflateMessage_found {inflater : Option Inflater} {stream : Inflater} (limit : Nat)
    (compressed : Bytes)
    (found : Receiver.stream library noContextTakeover inflater = some stream) :
    library.inflateMessage noContextTakeover limit inflater compressed =
      (if noContextTakeover then inflater else some (library.inflateAll limit stream compressed).1,
        (library.inflateAll limit stream compressed).2) := by
  unfold Receiver.stream at found
  unfold DeflateLibrary.inflateMessage
  cases noContextTakeover with
  | true =>
    rw [if_pos rfl] at found
    rw [if_pos rfl, found]
    rfl
  | false =>
    rw [if_neg Bool.false_ne_true] at found
    rw [if_neg Bool.false_ne_true, found]
    rfl

theorem keeping_admits (sender : Sender Deflater) (stream : Deflater)
    (surroundings : Surroundings) :
    (sender.keeping stream).admits surroundings = sender.admits surroundings ∧
      (sender.keeping stream).breaks surroundings = sender.breaks surroundings := by
  unfold Sender.keeping
  cases sender.outgoingNoContextTakeover with
  | true => exact ⟨rfl, rfl⟩
  | false => exact ⟨rfl, rfl⟩

@[simp] theorem keeping_connected (sender : Sender Deflater) (stream : Deflater) :
    (sender.keeping stream).connected = sender.connected := by
  unfold Sender.keeping
  split <;> rfl

@[simp] theorem keeping_written (sender : Sender Deflater) (stream : Deflater) :
    (sender.keeping stream).written = sender.written := by
  unfold Sender.keeping
  split <;> rfl

@[simp] theorem keeping_pendingControlFrames (sender : Sender Deflater) (stream : Deflater) :
    (sender.keeping stream).pendingControlFrames = sender.pendingControlFrames := by
  unfold Sender.keeping
  split <;> rfl

theorem keeping_fresh {sender : Sender Deflater} {stream : Deflater}
    (fresh : sender.outgoingNoContextTakeover = true) : sender.keeping stream = sender :=
  if_pos fresh

theorem InStep.stream (correct : library.Correct same Flushed)
    (inStep : InStep same noContextTakeover limit sending receiver)
    (connected : sending.sender.connected = true) (negotiated : sending.sender.negotiated = true)
    {stream : Deflater} (found : sending.sender.stream library = some stream) :
    ∃ other, Receiver.stream library noContextTakeover receiver.inflater = some other ∧
      same stream other := by
  have mode := inStep.mode connected negotiated
  have streams := inStep.streams connected negotiated
  unfold Sender.stream at found
  unfold Receiver.stream
  rw [← mode]
  cases takeover : sending.sender.outgoingNoContextTakeover with
  | true =>
    rw [takeover, if_pos rfl] at found
    exact correct.init stream found
  | false =>
    rw [takeover, if_neg Bool.false_ne_true] at found
    rw [if_neg Bool.false_ne_true]
    have agree := streams takeover
    revert agree found
    cases sending.sender.deflater with
    | none =>
      cases receiver.inflater with
      | none => exact fun found _ => correct.init stream found
      | some other => exact fun _ agree => agree.elim
    | some current =>
      cases receiver.inflater with
      | none => exact fun _ agree => agree.elim
      | some other => exact fun found agree => ⟨other, rfl, Option.some.inj found ▸ agree⟩

theorem Sending.notices_snoc (sender : Sender Deflater) (opcode : UInt8) (message : Bytes) :
    Sending.notices { sender, sent := sending.sent ++ [(opcode, message)] } =
      sending.notices ++ [.message opcode message] := List.map_append

/-- A message is deflated with a stream, and the receiver inflates the frame with an equal one. -/
theorem InStep.compressed (correct : library.Correct same Flushed)
    (inStep : InStep same noContextTakeover limit sending receiver)
    (connected : sending.sender.connected = true) (negotiated : sending.sender.negotiated = true)
    {stream next : Deflater} (found : sending.sender.stream library = some stream)
    {opcode : UInt8} {message body : Bytes}
    (data : Frame.isControl { opcode, rsv1 := true, payload := body } = false)
    (deflates : library.Deflates stream message next (body ++ syncTail)) (flushed : Flushed next)
    (short : (body ++ syncTail).length < 2 ^ 31)
    (suits : Receiver.Suits limit opcode message body.length) :
    InStep same noContextTakeover limit
      { sender := sending.sender.keeping next, sent := sending.sent ++ [(opcode, message)] }
      (receiver.receive library noContextTakeover outside
        { opcode, rsv1 := true, payload := body }) := by
  obtain ⟨other, heard, agree⟩ := inStep.stream correct connected negotiated found
  have mode := inStep.mode connected negotiated
  rw [← inStep.limit] at suits
  obtain ⟨written, final, whole, again, inflated⟩ :=
    DeflateLibrary.inflateAll_of_deflates correct agree deflates flushed short
      fun limited => (suits.2.1 limited).2
  cases List.append_cancel_right whole
  have taken := inflateMessage_found receiver.maxIncomingMessageSize body heard
  rw [inflated] at taken
  rw [Receiver.receive_message inStep.between data suits
    ((if_pos rfl).trans taken)]
  refine ⟨?_, inStep.between, inStep.limit, ?_, ?_, ?_⟩
  · rw [Sending.notices_snoc, ← inStep.notices]
  · rw [keeping_pendingControlFrames]
    exact inStep.controls
  · unfold Sender.keeping
    split <;> exact fun _ _ => mode
  · intro _ _ keeps
    unfold Sender.keeping at keeps ⊢
    rw [mode] at keeps ⊢
    cases noContextTakeover with
    | true => cases keeps.symm.trans mode
    | false => exact again

/-- A message within the limit. -/
def Sender.fits (sender : Sender Deflater) (message : Bytes) : Prop :=
  ¬ (0 < sender.maxOutgoingMessageSize ∧ sender.maxOutgoingMessageSize < message.length)

/-- The library flushes a message whole, in sizes that the counters of the loops hold. -/
def Completes (library : DeflateLibrary Deflater Inflater) (Flushed : Deflater → Prop)
    (stream : Deflater) (message output : Bytes) : Prop :=
  (∃ next, library.Deflates stream message next output ∧ Flushed next) ∧
    message.length + outputRoom < 2 ^ 31 ∧ output.length + outputRoom < 2 ^ 31

/-- What keeps the contexts together. A message that is written suits the other end, and one that is
deflated is flushed whole; it is refused only where that loses no context that is kept. -/
def Steady (library : DeflateLibrary Deflater Inflater) (Flushed : Deflater → Prop) (limit : Nat)
    (sender : Sender Deflater) (surroundings : Surroundings) (opcode : UInt8) (message : Bytes) :
    Prop :=
  sender.connected = true → sender.fits message →
    (sender.negotiated = false → sender.admits surroundings = true →
      Receiver.Suits limit opcode message message.length) ∧
    (sender.negotiated = true → ∀ stream, sender.stream library = some stream →
      (∃ output, Completes library Flushed stream message output ∧
        (sender.admits surroundings = true →
          Receiver.Suits limit opcode message (output.length - syncTail.length)) ∧
        (sender.admits surroundings = false →
          sender.outgoingNoContextTakeover = true ∨ sender.breaks surroundings = true)) ∨
      (sender.outgoingNoContextTakeover = true ∧ ∀ next output,
        library.Deflates stream (availableInput message) next output → withoutTail output = none))

theorem data_code (low : opcode &&& 0x8 = 0) (rsv1 : Bool) (payload : Bytes) :
    Frame.isControl { opcode, rsv1, payload } = false := decide_eq_false (not_not.mpr low)

theorem InStep.plain (inStep : InStep same noContextTakeover limit sending receiver)
    {opcode : UInt8} {message : Bytes} (negotiated : sending.sender.negotiated = false)
    (data : Frame.isControl { opcode, rsv1 := false, payload := message } = false)
    (suits : Receiver.Suits limit opcode message message.length) :
    InStep same noContextTakeover limit
      { sender := sending.sender, sent := sending.sent ++ [(opcode, message)] }
      (receiver.receive library noContextTakeover outside
        { opcode, rsv1 := false, payload := message }) := by
  rw [← inStep.limit] at suits
  rw [Receiver.receive_message inStep.between data suits
    (if_neg Bool.false_ne_true)]
  refine ⟨?_, inStep.between, inStep.limit, inStep.controls, fun _ compressed => ?_,
    fun _ compressed => ?_⟩
  · rw [Sending.notices_snoc, ← inStep.notices]
  · cases negotiated.symm.trans compressed
  · cases negotiated.symm.trans compressed

/-- A message on a connection that is gone is not written. -/
theorem sendMessage_offline (library : DeflateLibrary Deflater Inflater) (sender : Sender Deflater)
    (opcode : UInt8) (surroundings : Surroundings) (message : Bytes)
    (offline : sender.connected = false) :
    ∃ next, sender.sendMessage library opcode surroundings message = (next, false) ∧
      next.connected = false ∧ next.written = sender.written ∧
      next.pendingControlFrames = sender.pendingControlFrames := by
  have idle (next : Sender Deflater) (frame : Frame) (gone : next.connected = false) :
      next.sendDataFrame surroundings frame = (next, false) := by
    rw [Sender.sendDataFrame, if_pos (by simp [gone])]
  rw [Sender.sendMessage]
  split
  · exact ⟨sender, rfl, offline, rfl, rfl⟩
  split
  · rename_i negotiated
    rw [deflateMessage_eq _ _ negotiated]
    cases sender.stream library with
    | none => exact ⟨sender, rfl, offline, rfl, rfl⟩
    | some stream =>
      dsimp only
      have gone := (keeping_connected sender (library.deflateAll stream message).1).trans offline
      refine ⟨sender.keeping (library.deflateAll stream message).1, ?_, gone, keeping_written _ _,
        keeping_pendingControlFrames _ _⟩
      cases (library.deflateAll stream message).2.bind withoutTail with
      | none => rfl
      | some body => exact idle _ _ gone
  · exact ⟨sender, idle _ _ offline, offline, rfl, rfl⟩

theorem Delivers.sendMessage (correct : library.Correct same Flushed)
    (delivers : Delivers library same noContextTakeover outside start sending)
    {opcode : UInt8} {surroundings : Surroundings} {message : Bytes}
    (data : ∀ rsv1 payload, Frame.isControl { opcode, rsv1, payload } = false)
    (steady : Steady library Flushed start.maxIncomingMessageSize sending.sender surroundings opcode
      message) :
    Delivers library same noContextTakeover outside start
      (sending.record opcode message
        (sending.sender.sendMessage library opcode surroundings message)) := by
  cases connected : sending.sender.connected with
  | false =>
    obtain ⟨next, sent, gone, written, queue⟩ := sendMessage_offline library sending.sender
      opcode surroundings message connected
    rw [sent, Delivers, Sending.record]
    dsimp only
    rw [written]
    exact InStep.offline delivers gone (queue ▸ delivers.controls)
  | true =>
    rw [Sender.sendMessage]
    split
    · exact delivers
    rename_i fits
    obtain ⟨plain, compressed⟩ := steady connected fits
    cases negotiated : sending.sender.negotiated with
    | false =>
      rw [if_neg Bool.false_ne_true]
      exact delivers.sendDataFrame rfl rfl (fun _ _ _ => delivers) fun _ admitted =>
        InStep.plain delivers negotiated (data _ _) (plain negotiated admitted)
    | true =>
      rw [if_pos rfl, deflateMessage_eq _ _ negotiated]
      cases found : sending.sender.stream library with
      | none => exact delivers
      | some stream =>
        dsimp only
        obtain ⟨output, ⟨⟨next, deflates, flushed⟩, short, small⟩, suits, lost⟩ | ⟨fresh, bare⟩ :=
          compressed negotiated stream found
        · obtain ⟨other, -, agree⟩ := InStep.stream correct delivers connected negotiated found
          obtain ⟨body, -, -, -, -, rfl, -⟩ :=
            correct.inverse stream other message next output agree deflates flushed
          rw [DeflateLibrary.deflateAll_of_deflates correct (by omega) deflates, Option.bind_some,
            withoutTail_append]
          have admission := keeping_admits sending.sender next surroundings
          refine delivers.sendDataFrame (keeping_written _ _) (keeping_pendingControlFrames _ _)
            ?_ ?_
          · intro _ blocked alive
            rw [admission.1] at blocked
            rw [admission.2] at alive
            rcases lost blocked with fresh | broken
            · rw [keeping_fresh fresh]
              exact delivers
            · cases alive.symm.trans broken
          · intro _ admitted
            rw [admission.1] at admitted
            have size := suits admitted
            rw [List.length_append, Nat.add_sub_cancel] at size
            exact InStep.compressed correct delivers connected negotiated found (data _ _) deflates
              flushed (by omega) size
        · have unsent : (library.deflateAll stream message).2.bind withoutTail = none := by
            cases deflated : (library.deflateAll stream message).2 with
            | none => rfl
            | some output =>
              exact bare _ output (DeflateLibrary.deflates_of_deflateRounds
                (Prod.ext rfl deflated : library.deflateAll stream message = (_, some output)))
          rw [unsent, keeping_fresh fresh]
          exact delivers

/-- What keeps the contexts together through an action. -/
def Keeps (library : DeflateLibrary Deflater Inflater) (Flushed : Deflater → Prop) (limit : Nat)
    (sending : Sending Deflater) : Action → Prop
  | .sendTextMessage surroundings message =>
    Steady library Flushed limit sending.sender surroundings opText message
  | .sendBinaryMessage surroundings message =>
    Steady library Flushed limit sending.sender surroundings opBinary message
  | .sendControlFrame _ _ _ => True
  | .pumpControlFrames _ => True

theorem Delivers.step (correct : library.Correct same Flushed)
    (delivers : Delivers library same noContextTakeover outside start sending)
    (keeps : Keeps library Flushed start.maxIncomingMessageSize sending action) :
    Delivers library same noContextTakeover outside start (step library sending action) := by
  cases action with
  | sendTextMessage surroundings message =>
    exact delivers.sendMessage correct (data_code (by decide)) keeps
  | sendBinaryMessage surroundings message =>
    exact delivers.sendMessage correct (data_code (by decide)) keeps
  | sendControlFrame surroundings opcode payload =>
    exact delivers.sendControlFrame surroundings (control_code opcode payload)
  | pumpControlFrames surroundings => exact delivers.pumpControlFrames surroundings.writes

def Sender.established (client negotiated noContextTakeover : Bool)
    (maxOutgoingMessageSize maxPendingControlFrames maxPendingControlBytes : Nat) :
    Sender Deflater where
  connected := true
  client := client
  negotiated := negotiated
  outgoingNoContextTakeover := noContextTakeover
  maxOutgoingMessageSize := maxOutgoingMessageSize
  maxPendingControlFrames := maxPendingControlFrames
  maxPendingControlBytes := maxPendingControlBytes
  deflater := none
  pendingControlFrames := []
  written := []

/-- The other end after its handshake. -/
structure Receiver.Established (receiver : Receiver Deflater Inflater) : Prop where
  notices : receiver.notices = []
  between : receiver.messageOpcode = none
  inflater : receiver.inflater = none

/-- A message that repeats the last one is a back reference when it is long enough for one. -/
def repeatCode (last input : Bytes) : Bytes :=
  if input = last ∧ 3 ≤ input.length then [2] else 1 :: input

/-- A library whose context is the last message, and that takes no message which fills the room. -/
def repeatLibrary : DeflateLibrary Bytes Bytes where
  deflateInit := some []
  deflate last input _ :=
    let output := repeatCode last input ++ syncTail
    if output.length < outputRoom then ⟨input, [], output, .ok⟩ else ⟨last, input, [], .error⟩
  deflateCalls _ _ := 0
  inflateInit := some []
  inflate last data _ :=
    match data with
    | 2 :: _ => ⟨last, [], last, .ok⟩
    | 1 :: literal => ⟨literal, [], literal, .ok⟩
    | _ => ⟨last, [], [], .ok⟩
  inflateCalls _ data := data.length

def acceptingSocket : Surroundings := { entropy := true, writes := [.accepted, .accepted] }

end SwStack.WebSocket
