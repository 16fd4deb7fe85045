import SwStack.Rtp.Session

/-! What a depacketizer emits while packets are lost. A gap makes it drop what remains of the unit
it was in; but a packet of another timestamp takes the drop back, also when the first packets of its
unit are among the lost ones. -/
namespace SwStack.Rtp

open SwStack.Lib Depacketizer List

def RtpPacket.piece (packet : RtpPacket) : Piece := (packet.payload, packet.marker)

/-- The packets of a unit carry its parts, under its timestamp. -/
def SentUnit.WellSent (format : NalFormat) (unit : SentUnit) : Prop :=
  ∃ maxPayload, format.headerBytes + 1 < maxPayload ∧
    unit.packets.map RtpPacket.piece = format.packetizeNals maxPayload unit.nals ∧
    ∀ packet ∈ unit.packets,
      packet.timestamp = unit.timestamp ∧ packet.payloadType = format.payloadType

theorem appendRtpPackets_pieces (payloadType : UInt8) (timestamp : UInt32) (pieces : List Piece)
    (packetizer : Packetizer) :
    (Packetizer.appendRtpPackets payloadType timestamp pieces packetizer).1.map RtpPacket.piece =
        pieces ∧
      ∀ packet ∈ (Packetizer.appendRtpPackets payloadType timestamp pieces packetizer).1,
        packet.timestamp = timestamp ∧ packet.payloadType = payloadType := by
  induction pieces generalizing packetizer with
  | nil => exact ⟨rfl, fun packet member => absurd member not_mem_nil⟩
  | cons piece pieces ih =>
    obtain ⟨same, typed⟩ := ih { packetizer with sequenceNumber := packetizer.sequenceNumber + 1 }
    rw [Packetizer.appendRtpPackets]
    refine ⟨congrArg (piece :: ·) same, fun packet member => ?_⟩
    rcases mem_cons.mp member with rfl | member
    · exact ⟨rfl, rfl⟩
    · exact typed packet member

theorem packetize_wellSent (video : VideoCodec) (call : Submission) (packetizer : Packetizer) :
    SentUnit.WellSent video.format
      { nals := splitNals call.unit.payload
        timestamp :=
          (packetizer.packetize video.format call.stream call.unit call.mtuBytes).1.1
        packets := (packetizer.packetize video.format call.stream call.unit call.mtuBytes).1.2 } := by
  have small := video.headerBytes_le
  by_cases empty : call.unit.payload.isEmpty = true
  · have nothing : packetizer.packetize video.format call.stream call.unit call.mtuBytes =
        ((0, []), packetizer) := if_pos empty
    rw [nothing, List.isEmpty_iff.mp empty]
    exact ⟨64, by omega, rfl, fun packet member => absurd member not_mem_nil⟩
  · have sent : (packetizer.packetize video.format call.stream call.unit call.mtuBytes).1 =
        ((packetizer.rtpTimestamp call.stream call.unit).1,
          (Packetizer.appendRtpPackets video.format.payloadType
            (packetizer.rtpTimestamp call.stream call.unit).1
            (video.format.packetizeNals
              ((if call.mtuBytes < 64 then 64 else call.mtuBytes) - rtpHeaderBytes)
              (splitNals call.unit.payload))
            (packetizer.rtpTimestamp call.stream call.unit).2).1) := by
      rw [Packetizer.packetize, if_neg empty]
    rw [sent]
    refine ⟨(if call.mtuBytes < 64 then 64 else call.mtuBytes) - rtpHeaderBytes, ?_,
      appendRtpPackets_pieces _ _ _ _⟩
    rw [rtpHeaderBytes]
    split <;> omega

theorem wellSent_of_mem {video : VideoCodec} (member : unit ∈ sendAll video.format calls packetizer) :
    unit.WellSent video.format := by
  induction calls generalizing packetizer with
  | nil => cases member
  | cons call calls ih =>
    rw [sendAll] at member
    rcases mem_cons.mp member with rfl | member
    · exact packetize_wellSent video call packetizer
    · exact ih member

/-- Only the last packet of a unit has the marker, and none is too short to be read. -/
def Marked (minimumSize : Nat) : List RtpPacket → Prop
  | [] => True
  | packet :: packets => packet.marker = packets.isEmpty ∧
      minimumSize ≤ packet.payload.length ∧ Marked minimumSize packets

theorem marked_of_pending {format : NalFormat} {codec : Codec} {carried : Bytes → Prop}
    {sets : List Bytes} {maxPayload : Nat} {nals : List Bytes} {bytes : Bytes}
    {packets : List RtpPacket} (understands : Understands format codec carried)
    (room : format.headerBytes + 1 < maxPayload) (valid : ∀ nal ∈ nals, carried nal)
    (pending : Pending format codec sets maxPayload nals bytes (packets.map RtpPacket.piece)) :
    Marked codec.minimumSize packets := by
  induction packets generalizing bytes with
  | nil => trivial
  | cons packet packets ih =>
    let state := { Depacketizer.initial with accessUnit := bytes }
    have held : Pending format codec sets maxPayload nals state.accessUnit
        ((packet :: packets).map RtpPacket.piece) := pending
    obtain ⟨size, after, -, -, ⟨none_left, marker, -⟩ | ⟨some_left, marker, pending⟩⟩ :=
      held.absorb understands room valid
    · rw [map_eq_nil_iff.mp none_left]
      exact ⟨marker, size, trivial⟩
    · have left : packets.isEmpty = false :=
        Bool.eq_false_iff.mpr fun empty => some_left (by rw [List.isEmpty_iff.mp empty]; rfl)
      exact ⟨marker.trans left.symm, size, ih pending⟩

variable {state : Depacketizer}

theorem flushFrame_empty (codec : Codec) (timestamp : UInt32)
    (empty : state.accessUnit = []) : state.flushFrame codec timestamp = (state, []) := by
  rw [flushFrame, if_pos (List.isEmpty_iff.mpr empty)]

theorem flushFrame_spec (codec : Codec) (timestamp : UInt32) (state : Depacketizer) :
    (state.flushFrame codec timestamp).1.accessUnit = [] ∧
      Kept state (state.flushFrame codec timestamp).1 ∧
      ∀ video ∈ (state.flushFrame codec timestamp).2,
        (state.flushFrame codec timestamp).2 = [video] ∧ video.timestamp = timestamp ∧
          video.payload = state.accessUnit := by
  rw [flushFrame]
  split
  · rename_i empty
    exact ⟨List.isEmpty_iff.mp empty, ⟨rfl, rfl, rfl⟩, fun video member =>
      absurd member not_mem_nil⟩
  · dsimp only
    split
    · exact ⟨rfl, ⟨rfl, rfl, rfl⟩, fun video member => absurd member not_mem_nil⟩
    · refine ⟨rfl, ⟨rfl, rfl, rfl⟩, fun video member => ?_⟩
      rw [mem_singleton.mp member]
      exact ⟨rfl, rfl, rfl⟩

section

structure InUnit (timestamp : UInt32) (state : Depacketizer) : Prop where
  haveTimestamp : state.haveTimestamp = true
  currentTimestamp : state.currentTimestamp = timestamp

theorem adoptTimestamp_inUnit
    (here : InUnit timestamp state) : state.adoptTimestamp codec timestamp = (state, []) := by
  rw [adoptTimestamp, if_pos here.haveTimestamp]
  exact if_neg (not_not.mpr here.currentTimestamp.symm)

/-- Nothing is emitted for a new timestamp when nothing is held; but the drop is taken back. -/
theorem adoptTimestamp_empty (codec : Codec) (timestamp : UInt32) (empty : state.accessUnit = []) :
    ∃ after, state.adoptTimestamp codec timestamp = (after, []) ∧ InUnit timestamp after ∧
      after.accessUnit = [] ∧
      (after.dropCurrentAccessUnit = state.dropCurrentAccessUnit ∨
        after.dropCurrentAccessUnit = false ∧ state.haveTimestamp = true ∧
          state.currentTimestamp ≠ timestamp) := by
  cases have_timestamp : state.haveTimestamp with
  | false =>
    refine ⟨{ state with currentTimestamp := timestamp, haveTimestamp := true }, ?_, ⟨rfl, rfl⟩,
      empty, .inl rfl⟩
    rw [adoptTimestamp, have_timestamp]
    exact if_neg (not_not.mpr rfl)
  | true =>
    by_cases same : state.currentTimestamp = timestamp
    · exact ⟨state, adoptTimestamp_inUnit ⟨have_timestamp, same⟩, ⟨have_timestamp, same⟩, empty,
        .inl rfl⟩
    · refine ⟨{ state with currentTimestamp := timestamp, dropCurrentAccessUnit := false }, ?_,
        ⟨have_timestamp, rfl⟩, empty, .inr ⟨rfl, rfl, same⟩⟩
      rw [adoptTimestamp, if_pos have_timestamp]
      dsimp only
      rw [if_pos (Ne.symm same), flushFrame_empty codec _ empty]

theorem push_adopted {packet : RtpPacket} {after : Depacketizer}
    (adopted : state.adoptTimestamp codec packet.timestamp = (after, []))
    (here : InUnit packet.timestamp after) (size : codec.minimumSize ≤ packet.payload.length) :
    state.push codec sets packet = after.push codec sets packet := by
  rw [push, push, if_neg (by omega), if_neg (by omega), adopted, adoptTimestamp_inUnit here]

/-- Within a unit, either the rest is dropped or nothing of it has been missed. -/
inductive Holding (format : NalFormat) (codec : Codec) (sets : List Bytes) (maxPayload : Nat)
    (nals : List Bytes) (state : Depacketizer) (pieces : List Piece) : Prop where
  | dropping : state.dropCurrentAccessUnit = true → state.accessUnit = [] →
      Holding format codec sets maxPayload nals state pieces
  | building : state.dropCurrentAccessUnit = false →
      Pending format codec sets maxPayload nals state.accessUnit pieces →
      Holding format codec sets maxPayload nals state pieces

theorem push_holding {format : NalFormat} {carried : Bytes → Prop} {maxPayload : Nat}
    {nals : List Bytes} {packet : RtpPacket} {rest : List RtpPacket}
    (understands : Understands format codec carried) (room : format.headerBytes + 1 < maxPayload)
    (valid : ∀ nal ∈ nals, carried nal) (marked : Marked codec.minimumSize (packet :: rest))
    (here : InUnit packet.timestamp state)
    (holding : Holding format codec sets maxPayload nals state
      ((packet :: rest).map RtpPacket.piece)) :
    InUnit packet.timestamp (state.push codec sets packet).1 ∧
      (rest = [] ∧ (state.push codec sets packet).1.accessUnit = [] ∧
          (state.push codec sets packet).1.dropCurrentAccessUnit = false ∧
          (∀ video ∈ (state.push codec sets packet).2,
            (state.push codec sets packet).2 = [video] ∧ video.timestamp = packet.timestamp ∧
              state.dropCurrentAccessUnit = false ∧
              Shown (fun nal => codec.isKeyNal (format.nalType nal)) (parameterSets sets) nals
                video.payload) ∨
        rest ≠ [] ∧ (state.push codec sets packet).2 = [] ∧
          (state.push codec sets packet).1.dropCurrentAccessUnit = state.dropCurrentAccessUnit ∧
          Holding format codec sets maxPayload nals (state.push codec sets packet).1
            (rest.map RtpPacket.piece)) := by
  have size := marked.2.1
  cases holding with
  | dropping drop empty =>
    have pushed : state.push codec sets packet =
        (if packet.marker then { state with dropCurrentAccessUnit := false } else state, []) := by
      rw [push, if_neg (by omega), adoptTimestamp_inUnit here]
      exact if_pos drop
    rw [pushed]
    cases rest with
    | nil =>
      have marker : packet.marker = true := marked.1
      rw [if_pos marker]
      exact ⟨⟨here.1, here.2⟩, .inl ⟨rfl, empty, rfl, fun video member =>
        absurd member not_mem_nil⟩⟩
    | cons next rest =>
      have marker : packet.marker = false := marked.1
      rw [if_neg (by rw [marker]; decide)]
      exact ⟨here, .inr ⟨cons_ne_nil _ _, rfl, rfl, .dropping drop empty⟩⟩
  | building keep pending =>
    obtain ⟨-, after, absorbed, kept, continues⟩ :=
      Pending.absorb understands room valid pending
    have pushed : state.push codec sets packet =
        if packet.marker then after.flushFrame codec packet.timestamp else (after, []) := by
      rw [push, if_neg (by omega), adoptTimestamp_inUnit here]
      dsimp only
      rw [if_neg (by rw [keep]; decide)]
      have found : absorb codec sets packet.payload state = some after := absorbed
      rw [found]
      rfl
    have inside : InUnit packet.timestamp after :=
      ⟨kept.haveTimestamp.trans here.1, kept.currentTimestamp.trans here.2⟩
    have keeps : after.dropCurrentAccessUnit = false := kept.dropCurrentAccessUnit.trans keep
    rw [pushed]
    rcases continues with ⟨none_left, marker, shown⟩ | ⟨some_left, marker, pending⟩
    · have marker : packet.marker = true := marker
      obtain ⟨empty, kept, emitted⟩ := flushFrame_spec codec packet.timestamp after
      rw [if_pos marker]
      refine ⟨⟨kept.haveTimestamp.trans inside.1, kept.currentTimestamp.trans inside.2⟩,
        .inl ⟨map_eq_nil_iff.mp none_left, empty, kept.dropCurrentAccessUnit.trans keeps,
          fun video member => ?_⟩⟩
      obtain ⟨only, timestamp, payload⟩ := emitted video member
      exact ⟨only, timestamp, keep, payload ▸ shown⟩
    · have marker : packet.marker = false := marker
      rw [if_neg (by rw [marker]; decide)]
      exact ⟨inside, .inr ⟨fun empty => some_left (by rw [empty]; rfl), rfl, keeps.trans keep.symm,
        .building keeps pending⟩⟩

end

/-- A hole ends at the first packet of a unit, or in a unit with the timestamp of the packet that
arrived last before the hole. -/
def HolesAligned (fate : Nat → Option Bool) (packets : List (RtpPacket × Bool)) : Prop :=
  ∀ before after held found, packets[before]? = some held → packets[after]? = some found →
    before + 1 < after → fate before ≠ none → fate after ≠ none →
    (∀ between, before < between → between < after → fate between = none) →
    found.2 = true ∨ found.1.timestamp = held.1.timestamp

/-- What the receiver knows of the packets before `next`. -/
structure At (fate : Nat → Option Bool) (packets : List (RtpPacket × Bool)) (next : Nat)
    (receiver : Receiver) : Prop where
  gap : receiver.1 = true → 0 < next ∧ fate (next - 1) = none
  heard : receiver.2.haveTimestamp = true → ∃ before held, before < next ∧
    packets[before]? = some held ∧ fate before ≠ none ∧
    (∀ between, before < between → between < next → fate between = none) ∧
    receiver.2.currentTimestamp = held.1.timestamp

section

variable (video : VideoCodec) (sets : List Bytes) (fate : Nat → Option Bool)

def ShownAs (nals : List Bytes) (bytes : Bytes) : Prop :=
  Shown (fun nal => video.codec.isKeyNal (video.format.nalType nal)) (parameterSets sets) nals bytes

/-- The frame is the unit whose packets begin at `start`, and none of these was lost. -/
def Whole (unit : SentUnit × Nat) (frame : VideoPacket) : Prop :=
  frame.timestamp = unit.1.timestamp ∧ ShownAs video sets unit.1.nals frame.payload ∧
    ∀ position, unit.2 ≤ position → position < unit.2 + unit.1.packets.length →
      fate position ≠ none

/-- Where a receiver stands between two packets of a unit. -/
inductive Situation (unit : SentUnit) (maxPayload start next : Nat) (rest : List RtpPacket)
    (receiver : Receiver) : Prop where
  | missed : receiver.1 = true → Situation unit maxPayload start next rest receiver
  | ended : rest = [] → receiver.2.accessUnit = [] → receiver.2.dropCurrentAccessUnit = false →
      Situation unit maxPayload start next rest receiver
  | dropping : rest ≠ [] → InUnit unit.timestamp receiver.2 →
      receiver.2.dropCurrentAccessUnit = true → receiver.2.accessUnit = [] →
      Situation unit maxPayload start next rest receiver
  | building : rest ≠ [] → receiver.2.dropCurrentAccessUnit = false →
      receiver.2.accessUnit = [] ∨ InUnit unit.timestamp receiver.2 →
      Pending video.format video.codec sets maxPayload unit.nals receiver.2.accessUnit
        (rest.map RtpPacket.piece) →
      (∀ position, start ≤ position → position < next → fate position ≠ none) →
      Situation unit maxPayload start next rest receiver

end

section

theorem receive_datagram (state : Depacketizer) (size : video.codec.minimumSize ≤
    packet.payload.length) (typed : packet.payloadType = video.format.payloadType) :
    receive video sets packet.datagram state = state.push video.codec sets packet := by
  have filled : packet.payload ≠ [] := by
    rintro empty
    rw [empty] at size
    cases video <;> cases size
  have seven : packet.payloadType &&& 0x7F = packet.payloadType := by
    rw [typed]
    cases video <;> rfl
  rw [receive, ← typed, parseRtpPacket_datagram filled seven]

theorem onSequenceGap_spec (force : Bool) (state : Depacketizer) :
    (state.onSequenceGap force).accessUnit = [] ∧
      (state.onSequenceGap force).dropCurrentAccessUnit = true ∧
      (state.onSequenceGap force).haveTimestamp = state.haveTimestamp ∧
      (state.onSequenceGap force).currentTimestamp = state.currentTimestamp := by
  rw [onSequenceGap]
  dsimp only
  split
  · exact ⟨rfl, rfl, rfl, rfl⟩
  · exact ⟨rfl, rfl, rfl, rfl⟩

/-- After a gap, or from the state before, the packet is met inside its unit. -/
theorem adopted (split : unit.packets = done ++ packet :: rest)
    (timestamp : packet.timestamp = unit.timestamp)
    (pieces : unit.packets.map RtpPacket.piece =
      video.format.packetizeNals maxPayload unit.nals)
    (place : packets[start + done.length]? = some (packet, done.isEmpty))
    (here : At fate packets (start + done.length) receiver)
    (aligned : HolesAligned fate packets) (arrives : fate (start + done.length) ≠ none)
    (situation : Situation video sets fate unit maxPayload start (start + done.length)
      (packet :: rest) receiver) (force : Bool) :
    ∃ after, (if receiver.1 then receiver.2.onSequenceGap force else receiver.2).adoptTimestamp
        video.codec packet.timestamp = (after, []) ∧ InUnit packet.timestamp after ∧
      Holding video.format video.codec sets maxPayload unit.nals after
        ((packet :: rest).map RtpPacket.piece) ∧
      (after.dropCurrentAccessUnit = false → ∀ position, start ≤ position →
        position < start + done.length → fate position ≠ none) := by
  by_cases gap : receiver.1 = true
  · rw [if_pos gap]
    obtain ⟨empty, drop, have_same, current_same⟩ := onSequenceGap_spec force receiver.2
    obtain ⟨after, adopts, inside, afterEmpty, kept | ⟨taken, heard, other⟩⟩ :=
      adoptTimestamp_empty video.codec packet.timestamp empty
    · refine ⟨after, adopts, inside, .dropping (kept.trans drop) afterEmpty, fun keeps => ?_⟩
      cases keeps.symm.trans (kept.trans drop)
    · -- The drop is taken back: the hole must end at the first packet of the unit.
      rw [have_same] at heard
      rw [current_same] at other
      obtain ⟨positive, lost⟩ := here.gap gap
      obtain ⟨before, held, earlier, found, arrived, silent, current⟩ := here.heard heard
      have apart : before + 1 < start + done.length := by
        rcases Nat.lt_or_ge (before + 1) (start + done.length) with apart | adjacent
        · exact apart
        · have same : before = start + done.length - 1 := by omega
          exact absurd (same ▸ lost) arrived
      have first := (aligned before _ held _ found place apart arrived arrives silent).resolve_right
        fun same => other (current.trans same.symm)
      have none_done : done = [] := List.isEmpty_iff.mp first
      subst none_done
      refine ⟨after, adopts, inside, .building taken ?_, fun _ position above below => ?_⟩
      · rw [afterEmpty, ← nil_append (packet :: rest), ← split, pieces]
        exact .between [] unit.nals rfl .nil
      · exact absurd below (by simpa using above)
  · rw [if_neg gap]
    cases situation with
    | missed missed => exact absurd missed gap
    | ended none_left => cases none_left
    | dropping _ inside drop empty =>
      have here := timestamp ▸ inside
      refine ⟨_, adoptTimestamp_inUnit here, here, .dropping drop empty, fun keeps => ?_⟩
      cases keeps.symm.trans drop
    | building _ keep quiet pending arrived =>
      rcases quiet with empty | inside
      · obtain ⟨after, adopts, inside, afterEmpty, kept⟩ :=
          adoptTimestamp_empty video.codec packet.timestamp empty
        have keeps : after.dropCurrentAccessUnit = false := by
          rcases kept with kept | ⟨taken, -, -⟩
          · exact kept.trans keep
          · exact taken
        refine ⟨after, adopts, inside, .building keeps ?_, fun _ => arrived⟩
        rw [afterEmpty, ← empty]
        exact pending
      · have here := timestamp ▸ inside
        exact ⟨_, adoptTimestamp_inUnit here, here, .building keep pending, fun _ => arrived⟩

/-- One packet of a unit: a frame is emitted only with its last, and only when none was lost. -/
theorem deliverOne_situation (unitReadable : ∀ nal ∈ unit.nals, video.Readable nal)
    (room : video.format.headerBytes + 1 < maxPayload)
    (split : unit.packets = done ++ packet :: rest)
    (sent : ∀ packet ∈ unit.packets,
      packet.timestamp = unit.timestamp ∧ packet.payloadType = video.format.payloadType)
    (pieces : unit.packets.map RtpPacket.piece =
      video.format.packetizeNals maxPayload unit.nals)
    (marked : Marked video.codec.minimumSize (packet :: rest))
    (place : packets[start + done.length]? = some (packet, done.isEmpty))
    (here : At fate packets (start + done.length) receiver)
    (aligned : HolesAligned fate packets)
    (situation : Situation video sets fate unit maxPayload start (start + done.length)
      (packet :: rest) receiver) :
    At fate packets (start + done.length + 1)
        (deliverOne video sets (fate (start + done.length)) packet receiver).1 ∧
      Situation video sets fate unit maxPayload start (start + done.length + 1) rest
        (deliverOne video sets (fate (start + done.length)) packet receiver).1 ∧
      ∀ frame ∈ (deliverOne video sets (fate (start + done.length)) packet receiver).2,
        (deliverOne video sets (fate (start + done.length)) packet receiver).2 = [frame] ∧
          rest = [] ∧ Whole video sets fate (unit, start) frame := by
  have member : packet ∈ unit.packets :=
    split ▸ mem_append_right _ mem_cons_self
  obtain ⟨timestamp, typed⟩ := sent packet member
  cases lost : fate (start + done.length) with
  | none =>
    refine ⟨⟨fun _ => ⟨Nat.succ_pos _, lost⟩, fun heard => ?_⟩, .missed rfl, fun frame member =>
      absurd member not_mem_nil⟩
    obtain ⟨before, held, earlier, found, arrived, silent, current⟩ := here.heard heard
    refine ⟨before, held, Nat.lt_succ_of_lt earlier, found, arrived, fun between above below => ?_,
      current⟩
    rcases Nat.lt_succ_iff_lt_or_eq.mp below with below | rfl
    · exact silent between above below
    · exact lost
  | some force =>
    have arrives : fate (start + done.length) ≠ none := by rw [lost]; exact Option.some_ne_none _
    obtain ⟨after, adopts, inside, holding, arrived⟩ :=
      adopted split timestamp pieces place here aligned arrives situation force
    obtain ⟨insideAfter, outcome⟩ :=
      push_holding video.understands room unitReadable marked inside holding
    have delivered : deliverOne video sets (some force) packet receiver =
        ((false, (after.push video.codec sets packet).1),
          (after.push video.codec sets packet).2) := by
      rw [deliverOne]
      dsimp only
      rw [receive_datagram _ marked.2.1 typed, push_adopted adopts inside marked.2.1]
    rw [delivered]
    have known : At fate packets (start + done.length + 1)
        (false, (after.push video.codec sets packet).1) := by
      refine ⟨fun gap => absurd gap Bool.false_ne_true, fun _ => ⟨start + done.length, _,
        Nat.lt_succ_self _, place, arrives, fun between above below => ?_,
        insideAfter.currentTimestamp⟩⟩
      omega
    have delivered_so_far : after.dropCurrentAccessUnit = false → ∀ position, start ≤ position →
        position < start + done.length + 1 → fate position ≠ none := by
      intro keeps position above below
      rcases Nat.lt_succ_iff_lt_or_eq.mp below with below | rfl
      · exact arrived keeps position above below
      · exact arrives
    rcases outcome with ⟨rfl, empty, keeps, frames⟩ | ⟨some_left, silent, same, holding⟩
    · refine ⟨known, .ended rfl empty keeps, fun frame member => ?_⟩
      obtain ⟨only, stamped, built, shown⟩ := frames frame member
      refine ⟨only, rfl, stamped.trans timestamp, shown, fun position above below => ?_⟩
      rw [split, length_append, length_singleton] at below
      exact delivered_so_far built position above (by dsimp only at below; omega)
    · refine ⟨known, ?_, fun frame member => ?_⟩
      · cases holding with
        | dropping drop empty => exact .dropping some_left (timestamp ▸ insideAfter) drop empty
        | building keep pending =>
          exact .building some_left keep (.inr (timestamp ▸ insideAfter)) pending
            (delivered_so_far (same.symm.trans keep))
      · rw [silent] at member
        cases member

/-- Between two units nothing is held, or packets have just been lost. -/
def Boundary (receiver : Receiver) : Prop :=
  receiver.1 = true ∨ receiver.2.accessUnit = [] ∧ receiver.2.dropCurrentAccessUnit = false

theorem deliver_cons (next : Nat) (others : List RtpPacket) :
    deliver video sets fate next (packet :: others) receiver =
      ((deliver video sets fate (next + 1) others
          (deliverOne video sets (fate next) packet receiver).1).1,
        (deliverOne video sets (fate next) packet receiver).2 ++
          (deliver video sets fate (next + 1) others
            (deliverOne video sets (fate next) packet receiver).1).2) := rfl

theorem deliver_append (next : Nat) (first second : List RtpPacket) (receiver : Receiver) :
    deliver video sets fate next (first ++ second) receiver =
      ((deliver video sets fate (next + first.length) second
          (deliver video sets fate next first receiver).1).1,
        (deliver video sets fate next first receiver).2 ++
          (deliver video sets fate (next + first.length) second
            (deliver video sets fate next first receiver).1).2) := by
  induction first generalizing next receiver with
  | nil => rfl
  | cons packet first ih =>
    rw [cons_append, deliver_cons, ih, deliver_cons, length_cons, append_assoc,
      Nat.add_assoc, Nat.add_comm 1]

theorem deliver_rest (unitReadable : ∀ nal ∈ unit.nals, video.Readable nal)
    (room : video.format.headerBytes + 1 < maxPayload) (split : unit.packets = done ++ rest)
    (sent : ∀ packet ∈ unit.packets,
      packet.timestamp = unit.timestamp ∧ packet.payloadType = video.format.payloadType)
    (pieces : unit.packets.map RtpPacket.piece =
      video.format.packetizeNals maxPayload unit.nals)
    (marked : Marked video.codec.minimumSize rest)
    (places : ∀ position packet, unit.packets[position]? = some packet →
      packets[start + position]? = some (packet, position == 0))
    (here : At fate packets (start + done.length) receiver) (aligned : HolesAligned fate packets)
    (situation : Situation video sets fate unit maxPayload start (start + done.length) rest
      receiver) :
    At fate packets (start + unit.packets.length)
        (deliver video sets fate (start + done.length) rest receiver).1 ∧
      Boundary (deliver video sets fate (start + done.length) rest receiver).1 ∧
      ∀ frame ∈ (deliver video sets fate (start + done.length) rest receiver).2,
        (deliver video sets fate (start + done.length) rest receiver).2 = [frame] ∧
          Whole video sets fate (unit, start) frame := by
  induction rest generalizing done receiver with
  | nil =>
    rw [append_nil] at split
    rw [split]
    refine ⟨here, ?_, fun frame member => absurd member not_mem_nil⟩
    cases situation with
    | missed gap => exact .inl gap
    | ended _ empty keep => exact .inr ⟨empty, keep⟩
    | dropping more => exact absurd rfl more
    | building more => exact absurd rfl more
  | cons packet rest ih =>
    have first : (done.length == 0) = done.isEmpty := by cases done <;> rfl
    have found : unit.packets[done.length]? = some packet := by
      rw [split, getElem?_append_right le_rfl, Nat.sub_self]
      rfl
    have place := first ▸ places done.length packet found
    obtain ⟨after, next, frames⟩ := deliverOne_situation unitReadable room split sent pieces marked
      place here aligned situation
    have longer : (done ++ [packet]).length = done.length + 1 := length_append
    have rejoined : unit.packets = (done ++ [packet]) ++ rest := by
      rw [split, append_assoc]
      rfl
    rw [Nat.add_assoc, ← longer] at after next
    obtain ⟨ended, boundary, more⟩ := ih rejoined marked.2.2 after next
    rw [longer, ← Nat.add_assoc] at ended boundary more
    rw [deliver_cons]
    refine ⟨ended, boundary, fun frame member => ?_⟩
    rcases mem_append.mp member with member | member
    · obtain ⟨only, rfl, whole⟩ := frames frame member
      refine ⟨?_, whole⟩
      dsimp only
      rw [only]
      rfl
    · obtain ⟨only, whole⟩ := more frame member
      have silent : (deliverOne video sets (fate (start + done.length)) packet receiver).2 = [] := by
        refine eq_nil_iff_forall_not_mem.mpr fun other emitted => ?_
        obtain ⟨-, rfl, -⟩ := frames other emitted
        cases member
      refine ⟨?_, whole⟩
      dsimp only
      rw [silent, only]
      rfl

/-- The units with the positions of their first packets. -/
def placed (start : Nat) : List SentUnit → List (SentUnit × Nat)
  | [] => []
  | unit :: units => (unit, start) :: placed (start + unit.packets.length) units

theorem deliver_unit (sentWell : unit.WellSent video.format)
    (unitReadable : ∀ nal ∈ unit.nals, video.Readable nal)
    (places : ∀ position packet, unit.packets[position]? = some packet →
      packets[start + position]? = some (packet, position == 0))
    (here : At fate packets start receiver) (aligned : HolesAligned fate packets)
    (boundary : Boundary receiver) :
    At fate packets (start + unit.packets.length)
        (deliver video sets fate start unit.packets receiver).1 ∧
      Boundary (deliver video sets fate start unit.packets receiver).1 ∧
      ∀ frame ∈ (deliver video sets fate start unit.packets receiver).2,
        (deliver video sets fate start unit.packets receiver).2 = [frame] ∧
          Whole video sets fate (unit, start) frame := by
  obtain ⟨maxPayload, room, pieces, sent⟩ := sentWell
  have pending : Pending video.format video.codec sets maxPayload unit.nals []
      (unit.packets.map RtpPacket.piece) := by
    rw [pieces]
    exact .between [] unit.nals rfl .nil
  have marked := marked_of_pending video.understands room unitReadable pending
  have situation : Situation video sets fate unit maxPayload start
      (start + ([] : List RtpPacket).length) unit.packets receiver := by
    rcases boundary with gap | ⟨empty, keep⟩
    · exact .missed gap
    · by_cases none_sent : unit.packets = []
      · exact .ended none_sent empty keep
      · refine .building none_sent keep (.inl empty) (empty ▸ pending) fun position above below => ?_
        exact absurd below (not_lt.mpr above)
  exact deliver_rest unitReadable room (nil_append _).symm sent pieces marked places here
    aligned situation

theorem length_flagged (unit : SentUnit) : unit.flagged.length = unit.packets.length := by
  rw [SentUnit.flagged, length_map, length_zipIdx]

theorem flagged_places
    (total : packets = before ++ (unit :: units).flatMap SentUnit.flagged) (position : Nat)
    (found : unit.packets[position]? = some packet) :
    packets[before.length + position]? = some (packet, position == 0) := by
  have inside : position < unit.packets.length := (List.getElem?_eq_some_iff.mp found).1
  rw [total, getElem?_append_right (by omega), Nat.add_sub_cancel_left, flatMap_cons,
    getElem?_append_left (by rw [length_flagged]; exact inside), SentUnit.flagged,
    getElem?_map, getElem?_zipIdx, found]
  simp

theorem deliver_units (sentWell : ∀ unit ∈ units, unit.WellSent video.format)
    (readable : ∀ unit ∈ units, ∀ nal ∈ unit.nals, video.Readable nal)
    (total : packets = before ++ units.flatMap SentUnit.flagged)
    (here : At fate packets before.length receiver) (aligned : HolesAligned fate packets)
    (boundary : Boundary receiver) :
    ∃ kept : List (SentUnit × Nat), kept.Sublist (placed before.length units) ∧
      List.Forall₂ (Whole video sets fate) kept
        (deliver video sets fate before.length (units.flatMap SentUnit.packets) receiver).2 := by
  induction units generalizing before receiver with
  | nil => exact ⟨[], .slnil, .nil⟩
  | cons unit units ih =>
    obtain ⟨after, boundary, frames⟩ := deliver_unit (sentWell unit mem_cons_self)
      (readable unit mem_cons_self) (fun position packet => flagged_places total position) here
      aligned boundary
    have longer : (before ++ unit.flagged).length = before.length + unit.packets.length := by
      rw [length_append, length_flagged]
    rw [← longer] at after
    obtain ⟨kept, sub, whole⟩ := ih
      (fun other member => sentWell other (mem_cons_of_mem _ member))
      (fun other member => readable other (mem_cons_of_mem _ member))
      (by rw [total, append_assoc, flatMap_cons]) after boundary
    rw [longer] at sub whole
    rw [flatMap_cons, deliver_append, placed]
    cases emitted : (deliver video sets fate before.length unit.packets receiver).2 with
    | nil => exact ⟨kept, sub.cons _, whole⟩
    | cons frame others =>
      obtain ⟨only, shown⟩ := frames frame (emitted ▸ mem_cons_self)
      rw [emitted] at only
      obtain ⟨-, rfl⟩ := List.cons.inj only
      exact ⟨(unit, before.length) :: kept, sub.cons_cons _, .cons shown whole⟩

end

/-- Every frame is a whole unit, under its timestamp and in the order sent, and no packet of it was
lost, in every run whose holes are aligned and whose units can be read. -/
theorem frames_whole (video : VideoCodec) (sets : List Bytes) (calls : List Submission)
    (packetizer : Packetizer) (fate : Nat → Option Bool)
    (readable : ∀ unit ∈ sendAll video.format calls packetizer, ∀ nal ∈ unit.nals,
      video.Readable nal)
    (aligned : HolesAligned fate
      ((sendAll video.format calls packetizer).flatMap SentUnit.flagged)) :
    ∃ kept : List (SentUnit × Nat),
      kept.Sublist (placed 0 (sendAll video.format calls packetizer)) ∧
      List.Forall₂ (Whole video sets fate) kept
        (deliver video sets fate 0
          ((sendAll video.format calls packetizer).flatMap SentUnit.packets)
          (false, Depacketizer.initial)).2 := by
  have fresh : At fate ((sendAll video.format calls packetizer).flatMap SentUnit.flagged) 0
      (false, Depacketizer.initial) :=
    ⟨fun gap => absurd gap Bool.false_ne_true, fun heard => absurd heard Bool.false_ne_true⟩
  have total : (sendAll video.format calls packetizer).flatMap SentUnit.flagged =
      [] ++ (sendAll video.format calls packetizer).flatMap SentUnit.flagged := rfl
  have idle : Boundary (false, Depacketizer.initial) := .inr ⟨rfl, rfl⟩
  exact deliver_units (fun unit member => wellSent_of_mem member) readable total fresh aligned idle

/-- A key unit of one part, and at the next timestamp a unit of two. -/
def twoUnits : List Submission :=
  [{ stream := ⟨30, 1⟩, unit := { payload := [0, 0, 0, 1, 0x65, 1], pts := 0 }, mtuBytes := 1200 },
    { stream := ⟨30, 1⟩
      unit := { payload := [0, 0, 0, 1, 0x41, 1, 0, 0, 0, 1, 0x41, 2], pts := 1000 }
      mtuBytes := 1200 }]

/-- Only the packet at this position is lost. -/
def losing (position : Nat) : Nat → Option Bool := fun next =>
  if next = position then none else some false

theorem frames_whole_withoutLast : ∃ kept : List (SentUnit × Nat),
    kept.Sublist (placed 0 (sendAll h264Format twoUnits Packetizer.initial)) ∧
      List.Forall₂ (Whole .h264 [] (losing 2)) kept
        (deliver .h264 [] (losing 2) 0
          ((sendAll h264Format twoUnits Packetizer.initial).flatMap SentUnit.packets)
          (false, Depacketizer.initial)).2 := by
  refine frames_whole .h264 [] twoUnits Packetizer.initial (losing 2) (by decide +kernel) ?_
  intro before after held found _ foundAt apart _ arrives _
  have inside := (List.getElem?_eq_some_iff.mp foundAt).1
  have length : ((sendAll VideoCodec.h264.format twoUnits Packetizer.initial).flatMap
      SentUnit.flagged).length = 3 := by decide +kernel
  have last : after = 2 := by omega
  subst last
  exact absurd rfl arrives

/-- The first packet of the second unit is lost, and its second part is emitted alone. -/
theorem frames_whole_truncated : ¬∀ (video : VideoCodec) (sets : List Bytes)
    (calls : List Submission) (packetizer : Packetizer) (fate : Nat → Option Bool),
    (∀ unit ∈ sendAll video.format calls packetizer, ∀ nal ∈ unit.nals, video.Carries nal) →
      ((sendAll video.format calls packetizer).map SentUnit.timestamp).IsChain (· ≠ ·) →
      ∃ kept : List (SentUnit × Nat),
        kept.Sublist (placed 0 (sendAll video.format calls packetizer)) ∧
        List.Forall₂ (Whole video sets fate) kept
          (deliver video sets fate 0
            ((sendAll video.format calls packetizer).flatMap SentUnit.packets)
            (false, Depacketizer.initial)).2 := by
  intro always
  obtain ⟨kept, sub, whole⟩ := always .h264 [] twoUnits Packetizer.initial (losing 1)
    (by decide +kernel) (by decide +kernel)
  have frames : (deliver .h264 [] (losing 1) 0
      ((sendAll VideoCodec.h264.format twoUnits Packetizer.initial).flatMap SentUnit.packets)
      (false, Depacketizer.initial)).2 =
        [{ payload := [0, 0, 0, 1, 0x65, 1], timestamp := 0, keyFrame := true
           discontinuity := true },
          { payload := [0, 0, 0, 1, 0x41, 2], timestamp := 90, keyFrame := false
            discontinuity := true }] := by decide +kernel
  rw [frames] at whole
  cases whole with
  | cons _ rest =>
    cases rest with
    | cons second _ =>
      have inside := sub.subset (mem_cons_of_mem _ mem_cons_self)
      have member := mem_map_of_mem (f := fun unit : SentUnit × Nat =>
        (unit.1.timestamp, unit.2, unit.1.packets.length)) inside
      have units : (placed 0 (sendAll VideoCodec.h264.format twoUnits Packetizer.initial)).map
          (fun unit => (unit.1.timestamp, unit.2, unit.1.packets.length)) =
            [(0, 0, 1), (90, 1, 2)] := by decide +kernel
      obtain ⟨stamped, -, arrived⟩ := second
      rw [units, ← stamped] at member
      rcases mem_cons.mp member with same | member
      · cases congrArg Prod.fst same
      · have same := congrArg Prod.snd (mem_singleton.mp member)
        have start := congrArg Prod.fst same
        have length := congrArg Prod.snd same
        dsimp only at start length
        exact arrived 1 start.le (by omega) rfl

end SwStack.Rtp
