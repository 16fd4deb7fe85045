import SwStack.WebSocket.ContextRuns
import SwStack.WebSocket.Frames

/-! After a violation. The frames that are sent end with the Close frame, pings and pongs apart. The
connection goes on reading during its closing handshake, so a message is still handed on when a
whole data frame comes behind the violation, and only then. -/
namespace SwStack.WebSocket

open SwStack.Lib SwStack.Types List

variable {Deflater Inflater : Type}

/-- Behind a Close frame there are only pings and pongs: no data, and no other Close frame. -/
def ClosesLast (frames : List Frame) : Prop :=
  frames.Pairwise fun earlier later => earlier.opcode = ControlOpcode.close.code →
    later.opcode = ControlOpcode.ping.code ∨ later.opcode = ControlOpcode.pong.code

/-- Behind a violation there is no message. -/
def Silent (notices : List Notice) : Prop :=
  notices.Pairwise fun earlier later => earlier = .violation → later = .violation

/-- A violation is final: no message is handed on after it, and a Close frame is the last frame that
is sent, pings and pongs apart. -/
structure FailsForGood (socket : Socket Deflater Inflater) : Prop where
  silent : Silent socket.notices
  closes : ClosesLast socket.sender.written

/-- The last frame of a message. -/
def ReceivedFrame.endsMessage (frame : ReceivedFrame) : Bool :=
  frame.fin && decide (frame.opcode ≠ ControlOpcode.ping.code) &&
    decide (frame.opcode ≠ ControlOpcode.pong.code)

namespace Sender

variable {sender : Sender Deflater}

/-- What is written, and what waits for it. -/
def frames (sender : Sender Deflater) : List Frame :=
  sender.written ++ sender.pendingControlFrames

/-- The connection ends, and nothing is added. -/
structure Ends (sender next : Sender Deflater) : Prop where
  gone : next.connected = false
  frames : next.frames.Sublist sender.frames

theorem ends_abort (sender : Sender Deflater) : sender.Ends sender.abort where
  gone := rfl
  frames := by
    change (sender.written ++ []).Sublist (sender.written ++ sender.pendingControlFrames)
    rw [append_nil]
    exact sublist_append_left _ _

/-- One frame more, on the same connection. -/
structure Adds (frame : Frame) (sender next : Sender Deflater) : Prop where
  connected : next.connected = sender.connected
  client : next.client = sender.client
  negotiated : next.negotiated = sender.negotiated
  frames : next.frames = sender.frames ++ [frame]

theorem queueControlFrame_cases (sender : Sender Deflater) (frame : Frame) :
    sender.Ends (sender.queueControlFrame frame) ∨ Adds frame sender (sender.queueControlFrame frame) := by
  rw [queueControlFrame]
  split
  · exact .inl (ends_abort sender)
  · exact .inr ⟨rfl, rfl, rfl, (append_assoc _ _ _).symm⟩

/-- A control frame is written or queued, or the connection ends. -/
theorem sendControlFrame_cases (sender : Sender Deflater) (surroundings : Surroundings)
    (frame : Frame) :
    ((sender.connected = false ∨ 125 < frame.payload.length) ∧
        sender.sendControlFrame surroundings frame = sender) ∨
      sender.Ends (sender.sendControlFrame surroundings frame) ∨
      Adds frame sender (sender.sendControlFrame surroundings frame) := by
  rw [sendControlFrame]
  split
  · rename_i refused
    rw [Bool.not_eq_true'] at refused
    exact .inl ⟨refused, rfl⟩
  · right
    split
    · exact .inl (ends_abort sender)
    · split
      · rename_i empty
        split
        · refine .inr ⟨rfl, rfl, rfl, ?_⟩
          rw [frames, frames, List.isEmpty_iff.mp empty, append_nil, append_nil]
        · exact queueControlFrame_cases sender frame
        · exact .inl (ends_abort sender)
        · exact .inl (ends_abort sender)
      · exact queueControlFrame_cases sender frame

theorem frames_taking (split : sender.pendingControlFrames = taken ++ left) :
    (sender.taking taken left).frames = sender.frames := by
  rw [frames, frames, split]
  exact append_assoc _ _ _

theorem ends_taking (split : sender.pendingControlFrames = taken ++ left) :
    sender.Ends (sender.taking taken left).abort :=
  ⟨rfl, frames_taking split ▸ (ends_abort (sender.taking taken left)).frames⟩

theorem pumpControlFrames_cases (sender : Sender Deflater) (writes : List FrameWriteResult) :
    sender.Ends (sender.pumpControlFrames writes).1 ∨
      ((sender.pumpControlFrames writes).1.connected = sender.connected ∧
        (sender.pumpControlFrames writes).1.frames = sender.frames) := by
  obtain ⟨taken, left, split, pumped | aborted⟩ := pumpControlFrames_taking sender writes
  · rw [pumped]
    exact .inr ⟨rfl, frames_taking split⟩
  · rw [aborted]
    exact .inl (ends_taking split)

/-- A data frame is written at the end, or nothing is added. -/
theorem sendDataFrame_adds (sender : Sender Deflater) (surroundings : Surroundings)
    (frame : Frame) :
    sender.Ends (sender.sendDataFrame surroundings frame).1 ∨
      ((sender.sendDataFrame surroundings frame).1.connected = sender.connected ∧
        ((sender.sendDataFrame surroundings frame).1.frames = sender.frames ∨
          (sender.connected = true ∧
            (sender.sendDataFrame surroundings frame).1.frames = sender.frames ++ [frame]))) := by
  cases connected : sender.connected with
  | false =>
    rw [sendDataFrame, connected]
    exact .inr ⟨connected, .inl rfl⟩
  | true =>
    obtain ⟨taken, left, split, ⟨-, rfl, sent⟩ | ⟨-, -, ended⟩ | ⟨-, -, refused⟩⟩ :=
      sendDataFrame_cases sender surroundings frame connected
    · rw [sent]
      refine .inr ⟨connected, .inr ⟨rfl, ?_⟩⟩
      rw [frames, frames, split, taking]
      simp
    · rw [ended]
      exact .inl (ends_taking split)
    · rw [refused]
      exact .inr ⟨connected, .inl (frames_taking split)⟩

theorem deflateMessage_frames (library : DeflateLibrary Deflater Inflater)
    (sender : Sender Deflater) (message : Bytes) :
    (sender.deflateMessage library message).1.connected = sender.connected ∧
      (sender.deflateMessage library message).1.frames = sender.frames := by
  rw [deflateMessage]
  split
  · exact ⟨rfl, rfl⟩
  · split
    · split <;> exact ⟨rfl, rfl⟩
    · split <;> exact ⟨rfl, rfl⟩

/-- A message is written in one data frame at the end, or nothing is added. -/
theorem sendMessage_adds (library : DeflateLibrary Deflater Inflater) (sender : Sender Deflater)
    (opcode : UInt8) (surroundings : Surroundings) (message : Bytes) :
    sender.Ends (sender.sendMessage library opcode surroundings message).1 ∨
      ((sender.sendMessage library opcode surroundings message).1.connected = sender.connected ∧
        ((sender.sendMessage library opcode surroundings message).1.frames = sender.frames ∨
          ∃ frame : Frame, frame.opcode = opcode ∧ sender.connected = true ∧
            (sender.sendMessage library opcode surroundings message).1.frames =
              sender.frames ++ [frame])) := by
  obtain ⟨connected, same⟩ := deflateMessage_frames library sender message
  rw [sendMessage]
  split
  · exact .inr ⟨rfl, .inl rfl⟩
  · split
    · split
      · rename_i next deflated
        rw [deflated] at connected same
        exact .inr ⟨connected, .inl same⟩
      · rename_i next compressed deflated
        rw [deflated] at connected same
        dsimp only at connected same
        rcases sendDataFrame_adds next surroundings
          { opcode, rsv1 := true, payload := compressed } with
          ended | ⟨still, kept | ⟨open', added⟩⟩
        · exact .inl ⟨ended.gone, same ▸ ended.frames⟩
        · exact .inr ⟨still.trans connected, .inl (kept.trans same)⟩
        · exact .inr ⟨still.trans connected, .inr ⟨_, rfl, connected ▸ open', by rw [added, same]⟩⟩
    · rcases sendDataFrame_adds sender surroundings
        { opcode, rsv1 := false, payload := message } with ended | ⟨still, kept | ⟨open', added⟩⟩
      · exact .inl ended
      · exact .inr ⟨still, .inl kept⟩
      · exact .inr ⟨still, .inr ⟨_, rfl, open', added⟩⟩

end Sender

namespace Socket

variable {socket : Socket Deflater Inflater} {surroundings : Surroundings}

/-- An open connection has met no violation and has not sent a Close frame; one that closes has. -/
structure Sound (socket : Socket Deflater Inflater) : Prop where
  silent : Silent socket.notices
  closes : ClosesLast socket.sender.frames
  open_ : socket.sender.connected = true → socket.closing = false → socket.closeSent = false ∧
    Notice.violation ∉ socket.notices ∧
    ∀ frame ∈ socket.sender.frames, frame.opcode ≠ ControlOpcode.close.code
  closed : socket.sender.connected = true → socket.closing = true → socket.closeSent = true

theorem Sound.failsForGood (sound : socket.Sound) : FailsForGood socket where
  silent := sound.silent
  closes := sound.closes.sublist (sublist_append_left _ _)

theorem silent_violation {notices : List Notice} (silent : Silent notices) :
    Silent (notices ++ [.violation]) := by
  refine pairwise_append.mpr ⟨silent, pairwise_singleton _ _, ?_⟩
  intro earlier _ later member _
  exact mem_singleton.mp member

theorem silent_message {notices : List Notice} {opcode : UInt8} {payload : Bytes}
    (silent : Silent notices) (absent : Notice.violation ∉ notices) :
    Silent (notices ++ [.message opcode payload]) := by
  refine pairwise_append.mpr ⟨silent, pairwise_singleton _ _, ?_⟩
  rintro earlier before later - rfl
  exact absurd before absent

theorem closesLast_append (closes : ClosesLast frames)
    (ends : (∀ earlier ∈ frames, earlier.opcode ≠ ControlOpcode.close.code) ∨
      frame.opcode = ControlOpcode.ping.code ∨ frame.opcode = ControlOpcode.pong.code) :
    ClosesLast (frames ++ [frame]) := by
  refine pairwise_append.mpr ⟨closes, pairwise_singleton _ _, ?_⟩
  intro earlier before later member closed
  rw [mem_singleton.mp member]
  rcases ends with never | control
  · exact absurd closed (never earlier before)
  · exact control

theorem Sound.ended (sound : socket.Sound) {next : Socket Deflater Inflater}
    (notices : next.notices = socket.notices ∨ next.notices = socket.notices ++ [.violation])
    (ends : socket.sender.Ends next.sender) : next.Sound where
  silent := by
    rcases notices with same | violated
    · exact same ▸ sound.silent
    · exact violated ▸ silent_violation sound.silent
  closes := sound.closes.sublist ends.frames
  open_ connected := by cases ends.gone.symm.trans connected
  closed connected := by cases ends.gone.symm.trans connected

theorem Sound.abort (sound : socket.Sound) : socket.abort.Sound :=
  sound.ended (.inl rfl) (Sender.ends_abort socket.sender)

theorem Sound.failHard (sound : socket.Sound) : socket.failHard.Sound :=
  sound.ended (.inr rfl) (Sender.ends_abort socket.sender)

/-- What is sent while the connection stays as it is: a ping, a pong, or nothing. -/
theorem Sound.sendControlFrame (sound : socket.Sound) (payload : Bytes)
    (control : opcode.code = ControlOpcode.ping.code ∨ opcode.code = ControlOpcode.pong.code) :
    (socket.sendControlFrame surroundings opcode payload).Sound := by
  rcases Sender.sendControlFrame_cases socket.sender surroundings
    { opcode := opcode.code, rsv1 := false, payload } with ⟨-, same⟩ | ends | adds
  · have unchanged : socket.sendControlFrame surroundings opcode payload = socket :=
      congrArg (fun sender => { socket with sender }) same
    rwa [unchanged]
  · exact sound.ended (.inl rfl) ends
  · have frames : (socket.sendControlFrame surroundings opcode payload).sender.frames =
        socket.sender.frames ++ [{ opcode := opcode.code, rsv1 := false, payload }] := adds.frames
    constructor
    · exact sound.silent
    · rw [frames]
      exact closesLast_append sound.closes (.inr control)
    · intro connected stays
      obtain ⟨closeSent, quiet, plain⟩ := sound.open_ (adds.connected.symm.trans connected) stays
      refine ⟨closeSent, quiet, fun frame member => ?_⟩
      rw [frames, mem_append, mem_singleton] at member
      rcases member with old | rfl
      · exact plain frame old
      · rcases control with ping | pong
        · exact fun close => absurd (ping.symm.trans close) (by decide)
        · exact fun close => absurd (pong.symm.trans close) (by decide)
    · exact fun connected => sound.closed (adds.connected.symm.trans connected)

/-- A Close frame goes out on an open connection, which closes with it. -/
theorem Sound.leave (sound : socket.Sound) (connected : socket.sender.connected = true)
    (opened : socket.closing = false) {payload : Bytes} {later : Socket Deflater Inflater}
    (sender : later.sender = socket.sender.sendControlFrame surroundings
      { opcode := ControlOpcode.close.code, rsv1 := false, payload })
    (notices : later.notices = socket.notices ∨ later.notices = socket.notices ++ [.violation])
    (closed : later.sender.connected = true → later.closing = true ∧ later.closeSent = true) :
    later.Sound := by
  have silent : Silent later.notices := by
    rcases notices with same | violated
    · exact same ▸ sound.silent
    · exact violated ▸ silent_violation sound.silent
  have open_ (still : later.sender.connected = true) (stays : later.closing = false) : False := by
    cases (closed still).1.symm.trans stays
  rcases Sender.sendControlFrame_cases socket.sender surroundings
    { opcode := ControlOpcode.close.code, rsv1 := false, payload } with ⟨-, same⟩ | ends | adds
  · exact ⟨silent, (sender.trans same) ▸ sound.closes, fun still stays => (open_ still stays).elim,
      fun still _ => (closed still).2⟩
  · exact sound.ended notices (sender ▸ ends)
  · rw [← sender] at adds
    refine ⟨silent, ?_, fun still stays => (open_ still stays).elim,
      fun still _ => (closed still).2⟩
    rw [adds.frames]
    exact closesLast_append sound.closes (.inl (sound.open_ connected opened).2.2)

theorem Sound.close (sound : socket.Sound) (code : Nat) (reason : Bytes) :
    (socket.close surroundings code reason).Sound := by
  rw [Socket.close]
  split
  · exact sound
  · rename_i stays
    simp only [Bool.or_eq_true, not_or, Bool.not_eq_true', Bool.not_eq_false,
      Bool.not_eq_true] at stays
    exact sound.leave stays.1 stays.2 rfl (.inl rfl)
      fun connected => ⟨rfl, connected⟩

theorem Sound.fail (sound : socket.Sound) (code : Nat) :
    (socket.fail surroundings code).Sound := by
  rw [Socket.fail, Socket.close]
  split
  · rename_i stays
    refine ⟨silent_violation sound.silent, sound.closes, fun connected opened => ?_, sound.closed⟩
    rw [Bool.or_eq_true, Bool.not_eq_true'] at stays
    rcases stays with gone | closing
    · cases gone.symm.trans connected
    · cases closing.symm.trans opened
  · rename_i stays
    simp only [Bool.or_eq_true, not_or, Bool.not_eq_true', Bool.not_eq_false,
      Bool.not_eq_true] at stays
    exact sound.leave stays.1 stays.2 rfl (.inr rfl)
      fun connected => ⟨rfl, connected⟩

theorem Sound.maybeFinishCloseReply (sound : socket.Sound) (flushed : Bool) :
    (socket.maybeFinishCloseReply flushed).Sound := by
  rw [Socket.maybeFinishCloseReply]
  split
  · exact sound.abort
  · exact sound

theorem Sound.takeClose (sound : socket.Sound) (flushed : Bool) (payload : Bytes)
    (connected : socket.sender.connected = true) :
    (socket.takeClose surroundings flushed payload).Sound := by
  rw [Socket.takeClose]
  generalize closeAnswer payload = answer
  have sender : (if answer.1 then socket.notify .violation else socket).sender = socket.sender := by
    split <;> rfl
  have closeSent : (if answer.1 then socket.notify .violation else socket).closeSent =
      socket.closeSent := by
    split <;> rfl
  have notices : (if answer.1 then socket.notify .violation else socket).notices =
        socket.notices ∨
      (if answer.1 then socket.notify .violation else socket).notices =
        socket.notices ++ [.violation] := by
    split
    · exact .inr rfl
    · exact .inl rfl
  generalize (if answer.1 then socket.notify .violation else socket) = told
    at sender closeSent notices ⊢
  dsimp only
  split
  · exact sound.ended notices (sender ▸ Sender.ends_abort told.sender)
  · rename_i unsent
    have opened : socket.closing = false := Bool.eq_false_iff.mpr fun closing =>
      unsent (closeSent.trans (sound.closed connected closing))
    have sent : (Socket.sendControlFrame { told with closeReceived := true, closing := true }
        surroundings .close answer.2).sender = socket.sender.sendControlFrame surroundings
          { opcode := ControlOpcode.close.code, rsv1 := false, payload := answer.2 } := by
      rw [← sender]
      rfl
    split
    · refine Sound.maybeFinishCloseReply ?_ flushed
      exact sound.leave connected opened sent notices fun _ => ⟨rfl, rfl⟩
    · rename_i gone
      exact sound.leave connected opened sent notices fun still => absurd still gone

/-- Whether the loop comes to the last frame of a message before it has to stop. -/
def comesToMessage (client allowRsv1 : Bool) : Nat → Bytes → Bool
  | 0, _ => false
  | budget + 1, buffer =>
    match parseOneFrame buffer allowRsv1 with
    | .frame frame rest =>
      if frame.masked = client ∨ frame.opcode = ControlOpcode.close.code then false
      else frame.endsMessage || comesToMessage client allowRsv1 budget rest
    | _ => false

/-- What the loop finds after a frame when it goes on. -/
structure Onwards (socket next : Socket Deflater Inflater) : Prop where
  connected : next.sender.connected = true
  client : next.sender.client = socket.sender.client
  negotiated : next.sender.negotiated = socket.sender.negotiated
  buffer : next.buffer = socket.buffer
  violation : Notice.violation ∈ next.notices → Notice.violation ∈ socket.notices

def Took (socket : Socket Deflater Inflater) (result : Socket Deflater Inflater × Bool) : Prop :=
  result.1.Sound ∧ (result.2 = true → Onwards socket result.1)

/-- The same connection with something else in its buffers. -/
structure Alike (socket other : Socket Deflater Inflater) : Prop where
  sender : other.sender = socket.sender
  notices : other.notices = socket.notices
  closing : other.closing = socket.closing
  closeSent : other.closeSent = socket.closeSent
  buffer : other.buffer = socket.buffer

theorem Alike.sound {other : Socket Deflater Inflater} (alike : Alike socket other)
    (sound : socket.Sound) : other.Sound := by
  obtain ⟨sender, notices, closing, closeSent, -⟩ := alike
  constructor
  · exact notices ▸ sound.silent
  · exact sender ▸ sound.closes
  · rw [sender, notices, closing, closeSent]
    exact sound.open_
  · rw [sender, closing, closeSent]
    exact sound.closed

theorem Alike.onwards {other : Socket Deflater Inflater} (alike : Alike socket other)
    (connected : socket.sender.connected = true) : Onwards socket other :=
  ⟨alike.sender ▸ connected, by rw [alike.sender], by rw [alike.sender], alike.buffer,
    fun told => alike.notices ▸ told⟩

variable {inflate : Inflater → Bytes → Inflater × Inflated}

theorem took_fail {other : Socket Deflater Inflater} (sound : other.Sound) (code : Nat) :
    Took socket (other.fail surroundings code, false) :=
  ⟨sound.fail code, fun goes => by cases goes⟩

theorem took_deliver {opcode : UInt8} {compressed : Bool} {payload : Bytes}
    {other : Socket Deflater Inflater} (alike : Alike socket other) (sound : socket.Sound)
    (connected : socket.sender.connected = true) (quiet : Notice.violation ∉ socket.notices) :
    Took socket (other.deliver inflate surroundings opcode compressed payload) := by
  rw [Socket.deliver]
  generalize (if compressed then inflate other.inflater payload else
    (other.inflater, .message payload)) = inflated
  have next : Alike socket { other with inflater := inflated.1 } :=
    ⟨alike.sender, alike.notices, alike.closing, alike.closeSent, alike.buffer⟩
  split
  · exact took_fail (next.sound sound) _
  · exact took_fail (next.sound sound) _
  · rename_i message _
    split
    · exact took_fail (next.sound sound) _
    · obtain ⟨silent, closes, open_, closed⟩ := next.sound sound
      have absent : Notice.violation ∉ other.notices := alike.notices ▸ quiet
      have told : Notice.violation ∉ other.notices ++ [.message opcode message] := by
        simpa using absent
      refine ⟨⟨silent_message silent absent, closes, fun still opened => ?_, closed⟩, fun _ => ?_⟩
      · exact ⟨(open_ still opened).1, told, (open_ still opened).2.2⟩
      · obtain ⟨connected, client, negotiated, buffer, -⟩ := next.onwards connected
        exact ⟨connected, client, negotiated, buffer, fun violated => absurd violated told⟩

theorem took_failHard (sound : socket.Sound) : Took socket (socket.failHard, false) :=
  ⟨sound.failHard, fun goes => by cases goes⟩

theorem took_finalize (alike : Alike socket other)
    (sound : socket.Sound) (connected : socket.sender.connected = true)
    (quiet : Notice.violation ∉ socket.notices) :
    Took socket (other.finalizeMessage inflate surroundings) := by
  have kept : Alike socket (if other.currentMessageCompressed then other else
      { other with messageBuffer := [] }) := by
    split
    · exact alike
    · exact ⟨alike.sender, alike.notices, alike.closing, alike.closeSent, alike.buffer⟩
  rw [Socket.finalizeMessage]
  generalize (if other.currentMessageCompressed then other else
    { other with messageBuffer := [] }) = kept' at kept ⊢
  have took := @took_deliver _ _ _ surroundings inflate (other.messageOpcode.getD 0)
    other.currentMessageCompressed other.messageBuffer _ kept sound connected quiet
  dsimp only
  split
  · obtain ⟨sound, goes⟩ := took
    rename_i delivered
    obtain ⟨connected, client, negotiated, buffer, violation⟩ := goes delivered
    exact ⟨⟨sound.silent, sound.closes, sound.open_, sound.closed⟩,
      fun _ => ⟨connected, client, negotiated, buffer, violation⟩⟩
  · exact took

theorem took_continuation (sound : socket.Sound) (connected : socket.sender.connected = true)
    (quiet : frame.fin = true → Notice.violation ∉ socket.notices) :
    Took socket (socket.takeContinuation inflate surroundings frame) := by
  rw [Socket.takeContinuation]
  split
  · exact took_failHard sound
  · have joined : Alike socket
        { socket with messageBuffer := socket.messageBuffer ++ frame.payload } :=
      ⟨rfl, rfl, rfl, rfl, rfl⟩
    dsimp only
    split
    · exact took_fail (joined.sound sound) _
    · split
      · rename_i last
        exact took_finalize joined sound connected (quiet last)
      · exact ⟨joined.sound sound, fun _ => joined.onwards connected⟩

theorem took_data (sound : socket.Sound) (connected : socket.sender.connected = true)
    (quiet : frame.fin = true → Notice.violation ∉ socket.notices) :
    Took socket (socket.takeData inflate surroundings frame) := by
  have begun : Alike socket (if frame.fin then socket else
      { socket with
        messageOpcode := some frame.opcode
        messageBuffer := frame.payload
        currentMessageCompressed := frame.rsv1 }) := by
    split
    · exact ⟨rfl, rfl, rfl, rfl, rfl⟩
    · exact ⟨rfl, rfl, rfl, rfl, rfl⟩
  rw [Socket.takeData]
  split
  · exact took_failHard sound
  · dsimp only
    split
    · exact took_fail (begun.sound sound) _
    · split
      · rename_i last
        rw [if_pos last] at begun
        exact took_deliver begun sound connected (quiet last)
      · rename_i more
        rw [if_neg more] at begun
        exact ⟨begun.sound sound, fun _ => begun.onwards connected⟩

theorem took_ping (sound : socket.Sound) :
    Took socket (socket.sendControlFrame surroundings .pong payload,
      (socket.sendControlFrame surroundings .pong payload).sender.connected) := by
  refine ⟨sound.sendControlFrame payload (.inr rfl), fun connected => ?_⟩
  rcases Sender.sendControlFrame_cases socket.sender surroundings
    { opcode := ControlOpcode.pong.code, rsv1 := false, payload } with ⟨-, same⟩ | ends | adds
  · exact ⟨connected, congrArg Sender.client same, congrArg Sender.negotiated same, rfl, id⟩
  · cases ends.gone.symm.trans connected
  · exact ⟨connected, adds.client, adds.negotiated, rfl, id⟩

/-- A frame is taken. Only the last frame of a message needs that there was no violation. -/
theorem took_frame {frame : ReceivedFrame} (flushed : Bool) (sound : socket.Sound)
    (connected : socket.sender.connected = true)
    (quiet : frame.masked ≠ socket.sender.client → frame.opcode ≠ ControlOpcode.close.code →
      frame.endsMessage = true → Notice.violation ∉ socket.notices) :
    Took socket (socket.takeFrame inflate surroundings flushed frame) := by
  rw [Socket.takeFrame]
  split
  · exact took_fail sound _
  · rename_i masked
    split
    · exact took_ping sound
    · rename_i ping
      split
      · exact ⟨sound, fun _ => ⟨connected, rfl, rfl, rfl, id⟩⟩
      · rename_i pong
        split
        · exact ⟨sound.takeClose flushed _ connected, fun goes => by cases goes⟩
        · rename_i close
          have last (fin : frame.fin = true) : Notice.violation ∉ socket.notices :=
            quiet masked close (by simp [ReceivedFrame.endsMessage, fin, ping, pong])
          split
          · exact took_continuation sound connected last
          · exact took_data sound connected last

theorem goes_on (goes : (socket.takeFrame inflate surroundings flushed frame).2 = true) :
    ¬ (frame.masked = socket.sender.client ∨ frame.opcode = ControlOpcode.close.code) := by
  rintro (masked | close)
  · rw [Socket.takeFrame, if_pos masked] at goes
    cases goes
  · rw [Socket.takeFrame, close] at goes
    split at goes
    · cases goes
    · rw [if_neg (by decide), if_neg (by decide), if_pos rfl] at goes
      cases goes

/-- The loop, as long as no message ends in it behind a violation. -/
theorem Sound.processFrames (sound : socket.Sound) (connected : socket.sender.connected = true)
    (quiet : Notice.violation ∈ socket.notices →
      comesToMessage socket.sender.client socket.sender.negotiated budget socket.buffer = false) :
    (Socket.processFrames inflate outside flushed budget socket).Sound := by
  induction budget generalizing socket with
  | zero => exact sound
  | succ budget ih =>
    rw [Socket.processFrames]
    split
    · exact sound
    · split
      · rw [Socket.awaitFrame]
        split
        · exact sound.fail _
        · exact sound
      · exact sound.failHard
      · rename_i frame rest parsed
        have left : Socket.Sound { socket with buffer := rest } :=
          ⟨sound.silent, sound.closes, sound.open_, sound.closed⟩
        rw [comesToMessage, parsed] at quiet
        dsimp only at quiet
        obtain ⟨took, goes⟩ := @took_frame _ _ { socket with buffer := rest } (outside budget)
          inflate frame flushed left connected fun masked close ends violated => by
            rw [if_neg (not_or.mpr ⟨masked, close⟩), ends] at quiet
            cases quiet violated
        dsimp only
        split
        · rename_i on
          obtain ⟨connected, client, negotiated, buffer, violation⟩ := goes on
          refine ih took connected fun violated => ?_
          have later := quiet (violation violated)
          rw [if_neg (goes_on on), Bool.or_eq_false_iff] at later
          rw [client, negotiated, buffer]
          exact later.2
        · exact took

variable {library : DeflateLibrary Deflater Inflater}

theorem Sound.readyRead (sound : socket.Sound) (quiet : Notice.violation ∈ socket.notices →
      comesToMessage socket.sender.client socket.sender.negotiated socket.frameParseBudget
        (socket.buffer ++ socket.taken available) = false) :
    (socket.readyRead inflate outside flushed available).Sound := by
  have read : Socket.Sound { socket with buffer := socket.buffer ++ socket.taken available } :=
    ⟨sound.silent, sound.closes, sound.open_, sound.closed⟩
  rw [Socket.readyRead]
  dsimp only
  split
  · exact sound
  · rename_i connected
    rw [Bool.not_eq_true', Bool.not_eq_false] at connected
    split
    · exact read.fail _
    · exact read.processFrames connected quiet

theorem Sound.sendMessage (sound : socket.Sound) (data : opcode ≠ ControlOpcode.close.code) :
    (socket.sendMessage library opcode surroundings message).Sound := by
  rw [Socket.sendMessage]
  split
  · rename_i closing
    split
    · exact sound
    · obtain ⟨connected, frames⟩ := Sender.deflateMessage_frames library socket.sender message
      refine ⟨sound.silent, ?_, fun _ opened => ?_, fun still => sound.closed (connected ▸ still)⟩
      · exact frames ▸ sound.closes
      · cases opened.symm.trans closing
  · rename_i opened
    rw [Bool.not_eq_true] at opened
    rcases Sender.sendMessage_adds library socket.sender opcode surroundings message with
      ends | ⟨connected, same | ⟨frame, rfl, open', added⟩⟩
    · exact sound.ended (.inl rfl) ends
    · refine ⟨sound.silent, ?_, fun still stays => ?_, fun still => sound.closed (connected ▸ still)⟩
      · exact same ▸ sound.closes
      · obtain ⟨closeSent, quiet, plain⟩ := sound.open_ (connected ▸ still) stays
        exact ⟨closeSent, quiet, same ▸ plain⟩
    · obtain ⟨closeSent, quiet, plain⟩ := sound.open_ open' opened
      refine ⟨sound.silent, ?_, fun _ _ => ⟨closeSent, quiet, ?_⟩, fun _ closing => ?_⟩
      · exact added ▸ closesLast_append sound.closes (.inl plain)
      · rw [added]
        intro earlier member
        rcases mem_append.mp member with old | new
        · exact plain earlier old
        · rw [mem_singleton.mp new]
          exact data
      · cases opened.symm.trans closing

theorem Sound.pumpControlFrames (sound : socket.Sound) (writes : List FrameWriteResult)
    (flushed : Bool) : (socket.pumpControlFrames writes flushed).Sound := by
  rw [Socket.pumpControlFrames]
  refine Sound.maybeFinishCloseReply ?_ flushed
  rcases Sender.pumpControlFrames_cases socket.sender writes with ends | ⟨connected, same⟩
  · exact sound.ended (.inl rfl) ends
  · refine ⟨sound.silent, same ▸ sound.closes, fun still stays => ?_,
      fun still => sound.closed (connected ▸ still)⟩
    obtain ⟨closeSent, quiet, plain⟩ := sound.open_ (connected ▸ still) stays
    exact ⟨closeSent, quiet, same ▸ plain⟩

/-- Nothing that is read behind a violation holds the last frame of a message before the loop has
to stop. -/
def EndsNoMessage (socket : Socket Deflater Inflater) : SocketEvent → Prop
  | .readyRead _ _ available => Notice.violation ∈ socket.notices →
      comesToMessage socket.sender.client socket.sender.negotiated socket.frameParseBudget
        (socket.buffer ++ socket.taken available) = false
  | _ => True

theorem Sound.step (sound : socket.Sound)
    (quiet : socket.EndsNoMessage event) : (socket.step library inflate event).Sound := by
  cases event with
  | readyRead outside flushed available => exact sound.readyRead quiet
  | sendTextMessage surroundings message => exact sound.sendMessage (by decide)
  | sendBinaryMessage surroundings message => exact sound.sendMessage (by decide)
  | ping surroundings payload => exact sound.sendControlFrame payload (.inl rfl)
  | close surroundings code reason => exact sound.close code reason
  | writable writes flushed => exact sound.pumpControlFrames writes flushed
  | closeTimeout =>
    rw [Socket.step]
    split
    · exact sound.abort
    · exact sound
  | disconnected => exact sound.abort

/-- A connection after its handshake. -/
structure Established (socket : Socket Deflater Inflater) : Prop where
  notices : socket.notices = []
  written : socket.sender.written = []
  queue : socket.sender.pendingControlFrames = []
  opened : socket.closing = false
  closeSent : socket.closeSent = false

theorem Established.sound (established : socket.Established) : socket.Sound := by
  obtain ⟨notices, written, queue, opened, closeSent⟩ := established
  have frames : socket.sender.frames = [] := by rw [Sender.frames, written, queue]; rfl
  constructor
  · rw [notices]
    exact .nil
  · rw [frames]
    exact .nil
  · rw [notices, frames]
    exact fun _ _ => ⟨closeSent, not_mem_nil, fun _ never => by cases never⟩
  · exact fun _ closing => by cases opened.symm.trans closing

end Socket

variable {library : DeflateLibrary Deflater Inflater}
  {inflate : Inflater → Bytes → Inflater × Inflated}

/-- In a run that reads no last frame of a message behind a violation, violations are final. -/
theorem failure_final {start socket : Socket Deflater Inflater} (established : start.Established)
    (run : Reaches (fun socket event => some (socket.step library inflate event))
      Socket.EndsNoMessage start socket) : FailsForGood socket := by
  refine Socket.Sound.failsForGood (run.invariant established.sound ?_)
  rintro state event following sound quiet stepped
  cases stepped
  exact sound.step quiet

/-- A server's connection without compression. -/
def servingSocket : Socket Bytes Bytes where
  sender := Sender.established false false true 1024 64 1024
  inflater := []
  closing := false
  closeSent := false
  closeReceived := false
  closeAfterControlFlush := false
  maxIncomingMessageSize := 1024
  maxBufferedIncomingBytes := 0
  readBudgetBytes := 1024
  frameParseBudget := 64
  buffer := []
  messageOpcode := none
  messageBuffer := []
  currentMessageCompressed := false
  notices := []

/-- Something to read on a socket that takes what is written. -/
def reads (available : Bytes) : SocketEvent :=
  .readyRead (fun _ => acceptingSocket) false available

def serve (socket : Socket Bytes Bytes) (event : SocketEvent) : Socket Bytes Bytes :=
  socket.step repeatLibrary (fun inflater _ => (inflater, .failed)) event

/-- A text without a mask, and the peer's answer to the Close frame. -/
theorem failure_final_answered :
    FailsForGood (serve (serve servingSocket (reads [0x81, 0x01, 0x78]))
      (reads [0x88, 0x82, 0, 0, 0, 0, 0x03, 0xea])) := by
  refine @failure_final _ _ repeatLibrary _ servingSocket _ ⟨rfl, rfl, rfl, rfl, rfl⟩
    (.next (.next .refl ?_ rfl) ?_ rfl)
  · exact fun violated => by cases violated
  · exact fun _ => by decide +kernel

/-- Behind a text without a mask a message with one is still handed on. -/
theorem failure_not_final :
    ¬ FailsForGood (serve (serve servingSocket (reads [0x81, 0x01, 0x78]))
      (reads [0x82, 0x81, 0, 0, 0, 0, 0x78])) := by
  intro failed
  have notices : (serve (serve servingSocket (reads [0x81, 0x01, 0x78]))
      (reads [0x82, 0x81, 0, 0, 0, 0, 0x78])).notices =
        [.violation, .message opBinary [0x78]] := by decide +kernel
  have silent := failed.silent
  rw [notices] at silent
  cases (pairwise_cons.mp silent).1 _ (mem_singleton_self _) rfl

end SwStack.WebSocket
