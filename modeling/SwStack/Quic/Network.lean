import SwStack.Quic.Emission
import SwStack.Quic.Delivery

/-! Two endpoints and a network that loses, repeats and reorders what they send. Packet
protection is ideal: a frame arrives only as the peer built it. -/
namespace SwStack.Quic

open SwStack.Lib List

def Role.other : Role → Role
  | .client => .server
  | .server => .client

/-- An endpoint with what was written to it, the packets it built and what was read of it. -/
structure Peer where
  connection : Connection
  written : Log
  built : List Packet
  reads : Nat → Bytes

abbrev Pair := Role → Peer

namespace Peer

def start (setup : Setup) : Peer :=
  { connection := .start setup, written := fun _ => .empty, built := [], reads := fun _ => [] }

def after (peer : Peer) (input : Input) : Peer :=
  { connection := peer.connection.perform input
    written := peer.connection.writes peer.written input
    built := peer.built ++ peer.connection.builds input
    reads := peer.connection.reading peer.reads input }

end Peer

/-- What one endpoint is given that the other built: a packet as it is, its frames in any
order and number. The application and the driver call what they like, but queue no STREAM
and no ACK frame of their own. -/
def Genuine (built : List Packet) : Input → Prop
  | .admitPacket _ _ packet => packet ∈ built
  | .processFrame level _ _ frame => ∃ packet ∈ built, packet.level = level ∧ frame ∈ packet.frames
  | .injectEarlyStream streamId offset data fin =>
    ∃ packet ∈ built, Frame.stream streamId offset data fin ∈ packet.frames
  | .queueFrame _ frame => frame.isStream = false ∧ frame.isAck = false
  | _ => True

namespace Pair

def start (setup : Role → Setup) : Pair := fun side => .start (setup side)

def act (pair : Pair) (side : Role) (input : Input) : Pair :=
  Function.update pair side ((pair side).after input)

def step (pair : Pair) (action : Role × Input) : Option Pair := some (pair.act action.1 action.2)

/-- The states of two endpoints, under a condition on the input of each. -/
abbrev Run (allowed : Connection → Input → Prop) (first : Pair) : Pair → Prop :=
  Reaches step (fun pair action => Genuine (pair action.1.other).built action.2 ∧
    allowed (pair action.1).connection action.2) first

theorem Run.act (reached : Run allowed first pair) (genuine : Genuine (pair side.other).built input)
    (permitted : allowed (pair side).connection input) :
    Run allowed first (pair.act side input) := by
  have stepped : pair.step (side, input) = some (pair.act side input) := rfl
  exact .next reached ⟨genuine, permitted⟩ stepped

end Pair

namespace Connection

variable {c d : Connection} {log : Log} {reads : Nat → Bytes} {input : Input}

theorem Writer.writes_cases (writer : Writer log c) (input : Input) :
    c.writes log input = log ∨ ∃ streamId data fin, (log streamId).fin = false ∧
      c.writes log input = log.append streamId data fin := by
  cases input with
  | sendStreamData streamId data fin =>
    unfold writes
    rcases sendStreamData_cases writer.retirement streamId data fin with
      ⟨refused, -⟩ | ⟨accepted, mid, before, live, open_, -, -⟩
    · exact .inl (if_neg refused)
    · have matches_ := (writer.quiet before).sender.sendStream live
      exact .inr ⟨streamId, data, fin, matches_.finQueued ▸ open_, if_pos accepted⟩
  | _ => exact .inl rfl

theorem Writer.ends_writes (writer : Writer log c) (input : Input) {frame : Frame}
    (ends : frame.Ends log) : frame.Ends (c.writes log input) := by
  rcases writer.writes_cases input with same | ⟨streamId, data, fin, opened, grown⟩
  · rw [same]
    exact ends
  · rw [grown]
    exact ends.append opened data fin

theorem Writer.arrived_writes (writer : Writer log c) (input : Input)
    (arrived : Arrived log reads d) : Arrived (c.writes log input) reads d := by
  rcases writer.writes_cases input with same | ⟨streamId, data, fin, opened, grown⟩
  · rw [same]
    exact arrived
  · rw [grown]
    exact arrived.append opened data fin

theorem Writer.builds (writer : Writer log c) (input : Input) (packet : Packet)
    (member : packet ∈ c.builds input) (frame : Frame) (carried : frame ∈ packet.frames) :
    frame.Ends log := by
  have built : Builds drainedRules c (c.perform input) (c.builds input) := perform_builds c input
  obtain ⟨before, after, reached, made, -⟩ := built packet member
  have held := (writer.changes reached).ending.held
  cases frame with
  | stream streamId offset data fin =>
    rcases made.frames _ carried with pending | ⟨nowMs, ack⟩ | direct
    · exact held.pending packet.level _ pending rfl
    · exact absurd (generateAck_plain ack) (by intro same; cases same)
    · cases direct
  | _ => exact trivial

end Connection

namespace Pair

open Connection

variable {pair later : Pair}

/-- What holds between two endpoints and the network. -/
structure Consistent (pair : Pair) : Prop where
  writer : ∀ side, Writer (pair side).written (pair side).connection
  built : ∀ side, ∀ packet ∈ (pair side).built, ∀ frame ∈ packet.frames,
    frame.Ends (pair side).written
  arrived : ∀ side, Arrived (pair side.other).written (pair side).reads (pair side).connection

theorem Consistent.start (setup : Role → Setup) : (Pair.start setup).Consistent :=
  { writer := fun side => .start (setup side)
    built := fun _ _ member => absurd member not_mem_nil
    arrived := fun side => .start (setup side) }

theorem Consistent.step (consistent : pair.Consistent)
    (genuine : Genuine (pair side.other).built input)
    (drained : ResetsDrained (pair side).connection input) :
    (pair.act side input).Consistent := by
  have writer := consistent.writer side
  have quiet : DriverQuiet input := by
    rintro level frame rfl
    exact genuine.1
  have brought : ∀ frame, brings input = some frame → frame.Ends (pair side.other).written := by
    intro frame found
    cases input with
    | processFrame level mode clock brought =>
      cases found
      obtain ⟨packet, member, -, carried⟩ := genuine
      exact consistent.built side.other packet member _ carried
    | injectEarlyStream streamId offset data fin =>
      cases found
      obtain ⟨packet, member, carried⟩ := genuine
      exact consistent.built side.other packet member _ carried
    | _ => cases found
  have apart : side.other ≠ side := by cases side <;> rintro ⟨⟩
  unfold act
  refine ⟨fun other => ?_, fun other packet member frame carried => ?_, fun other => ?_⟩
  · rw [Function.update_apply]
    split
    · exact writer.perform quiet drained
    · exact consistent.writer other
  · rw [Function.update_apply] at member ⊢
    split at member
    · rename_i here
      rw [if_pos here]
      refine writer.ends_writes input ?_
      rcases mem_append.mp member with old | new
      · exact consistent.built side packet old frame carried
      · exact writer.builds input packet new frame carried
    · rename_i elsewhere
      rw [if_neg elsewhere]
      exact consistent.built other packet member frame carried
  · by_cases here : other = side
    · subst here
      rw [Function.update_self, Function.update_of_ne apart]
      exact (consistent.arrived other).perform writer.retirement brought
    · have opposite : other.other = side := by
        cases other <;> cases side <;> first | rfl | exact absurd rfl here
      have arrived := consistent.arrived other
      rw [opposite] at arrived ⊢
      rw [Function.update_self, Function.update_of_ne here]
      exact writer.arrived_writes input arrived

def clock : Clock := ⟨10, 1000, 1000, fun _ => 3⟩

/-- Two endpoints with 1-RTT keys. -/
def keyed (setup : Role → Setup) : Pair :=
  ((start setup).act .client (.setLevelKeys .application ⟨true, 0⟩ ⟨true, 0⟩)).act .server
    (.setLevelKeys .application ⟨true, 0⟩ ⟨true, 0⟩)

/-- A packet of the client's with 1-RTT keys. -/
def clientPacket (packetNumber size : Nat) (frames : List Frame) : Packet :=
  { level := .application, keys := some ⟨true, 0⟩, keyPhase := false, packetNumber, frames, size }

def wholePacket : Packet := clientPacket 0 28 [.stream 0 0 [7, 8, 9] true]

/-- The client sends three bytes and the end. -/
def sentWhole : Pair :=
  ((keyed Setup.default).act .client (.sendStreamData 0 [7, 8, 9] true)).act .client
    (.buildDatagrams clock fun _ _ => true)

/-- The server reads them. -/
def delivered : Pair :=
  ((sentWhole.act .server (.admitPacket .active 10 wholePacket)).act .server
    (.processFrame .application .active clock (.stream 0 0 [7, 8, 9] true))).act .server
    (.readStream 0)

/-- The server admits two bytes of a bidirectional stream. -/
def narrow (side : Role) : Setup :=
  { Setup.default side with
    peerParams := some { TransportParameters.default with initialMaxStreamDataBidiRemote := 2 } }

theorem Run.deliver (reached : Run allowed first pair ∧ pair .client = sender) (input : Input)
    (genuine : Genuine sender.built input) (permitted : allowed (pair .server).connection input) :
    Run allowed first (pair.act .server input) ∧ (pair.act .server input) .client = sender := by
  obtain ⟨run, rfl⟩ := reached
  have apart : Role.client ≠ Role.server := by decide
  exact ⟨Run.act run genuine permitted, Function.update_of_ne apart _ _⟩

end Pair
end SwStack.Quic
