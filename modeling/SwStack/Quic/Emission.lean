import SwStack.Quic.SendChanges

/-! What the packets are made of that an endpoint builds. -/
namespace SwStack.Quic

open SwStack.Lib List

/-- Frames that never wait in the queue of a level. -/
def Frame.isDirect : Frame → Bool
  | .datagram _ | .connectionClose .. | .pathChallenge _ | .pathResponse _ => true
  | _ => false

def Frame.isAck : Frame → Bool
  | .ack .. => true
  | _ => false

namespace Connection

variable {rules : Rules} {c d : Connection}

/-- The packets an input hands to the network. -/
def builds (c : Connection) : Input → List Packet
  | .buildDatagrams clock seals => (c.buildDatagrams clock seals).2.1
  | .buildPathControlDatagram response controlData nowMs maxWireBytes seals =>
    (c.buildPathControlDatagram response controlData nowMs maxWireBytes seals).2.1
  | _ => []

/-- A packet takes its keys and number from a state and its frames from the queue there. -/
structure MadeFrom (c : Connection) (packet : Packet) : Prop where
  keys : packet.keys = (c.spaces packet.level).txKeys
  keyPhase : packet.keyPhase = (decide (packet.level = .application) && c.keys.keyPhase)
  number : packet.packetNumber = (c.spaces packet.level).nextTxPn
  frames : ∀ frame ∈ packet.frames, frame ∈ (c.spaces packet.level).pendingFrames ∨
    (∃ nowMs, c.generateAck packet.level nowMs = .ok frame) ∨ frame.isDirect = true

/-- Every packet is made from a state on the way, and its number is spent by it. -/
def Builds (rules : Rules) (c d : Connection) (packets : List Packet) : Prop :=
  ∀ packet ∈ packets, ∃ before after, Changes rules c before ∧ MadeFrom before packet ∧
    Changes rules before after ∧
    (after.spaces packet.level).nextTxPn = packet.packetNumber + 1 ∧ Changes rules after d

namespace Builds

theorem nil : Builds rules c d [] := fun _ member => absurd member not_mem_nil

theorem later {next : Connection} {packets : List Packet} (builds : Builds rules c d packets)
    (further : Changes rules d next) : Builds rules c next packets := by
  intro packet member
  obtain ⟨before, after, reached, made, spent, number, rest⟩ := builds packet member
  exact ⟨before, after, reached, made, spent, number, rest.trans further⟩

theorem earlier {first : Connection} {packets : List Packet} (changes : Changes rules first c)
    (builds : Builds rules c d packets) : Builds rules first d packets := by
  intro packet member
  obtain ⟨before, after, reached, made, rest⟩ := builds packet member
  exact ⟨before, after, changes.trans reached, made, rest⟩

theorem append {packets more : List Packet} (left : Builds rules c d packets)
    (right : Builds rules c d more) : Builds rules c d (packets ++ more) := by
  intro packet member
  rcases mem_append.mp member with early | late
  · exact left packet early
  · exact right packet late

theorem none (packets : List Packet) :
    ∃ built, packets = packets ++ built ∧ Builds rules c d built :=
  ⟨[], (append_nil packets).symm, .nil⟩

end Builds

variable {level : Level} {nowMs : Nat}

theorem spent_number :
    ((if ackEliciting && trackGlobalLoss then c.trackPacket level frames nowMs size
      else c.spendPacketNumber level).spaces level).nextTxPn = (c.spaces level).nextTxPn + 1 := by
  split
  · unfold trackPacket
    simp
  · unfold spendPacketNumber
    simp

theorem takeQueued_seal (c : Connection) (level : Level) (count probesPending : Nat) :
    ((c.takeQueued level count probesPending).spaces level).txKeys = (c.spaces level).txKeys ∧
      ((c.takeQueued level count probesPending).spaces level).nextTxPn =
        (c.spaces level).nextTxPn ∧
      (c.takeQueued level count probesPending).keys = c.keys := by
  unfold takeQueued takeDatagrams
  split <;> simp [setSpace]

theorem commitPacket_number (c : Connection) (level : Level) (generated : Option Frame)
    (size : Nat) :
    ((c.commitPacket level generated size).spaces level).nextTxPn =
      (c.spaces level).nextTxPn := by
  unfold commitPacket
  dsimp only
  split
  · unfold commitAck
    simp
  · rfl

theorem assemblePacket_made {seals : Nat → Nat → Bool} {generated : Option Frame} {packet : Packet}
    (generates : ∀ frame ∈ generated, c.generateAck level nowMs = .ok frame)
    (sent : c.assemblePacket level nowMs seals generated = .sent d packet) :
    packet.level = level ∧ MadeFrom c packet ∧
      (d.spaces packet.level).nextTxPn = packet.packetNumber + 1 := by
  unfold assemblePacket at sent
  split at sent
  · contradiction
  · split at sent
    · contradiction
    · obtain ⟨count, bound, frames, -⟩ := pack_spec c.congestion (c.packetPayloadBudget level)
        (c.sendQueue level)
        { frames := generated.toList
          payloadSize := (generated.toList.map Frame.encodedSize).sum, ackEliciting := false
          probesPending := (c.spaces level).probesPending, tooLarge := false }
      have packed : (c.packing level generated).frames =
          generated.toList ++ (c.sendQueue level).take count := frames
      obtain ⟨txKeys, number, keys⟩ := takeQueued_seal c level
        ((c.packing level generated).frames.length - generated.toList.length)
        (c.packing level generated).probesPending
      unfold sendPacking at sent
      split at sent
      · contradiction
      · contradiction
      · rename_i next built encoded
        cases sent
        obtain ⟨made, after⟩ := encodePacket_sent encoded
        have here : packet.level = level := congrArg Packet.level made
        refine ⟨here, ⟨?_, ?_, ?_, fun frame member => ?_⟩, ?_⟩
        · rw [here, ← txKeys]
          exact congrArg Packet.keys made
        · rw [here, ← keys]
          exact congrArg Packet.keyPhase made
        · rw [here, ← number]
          exact congrArg Packet.packetNumber made
        · rw [made] at member
          dsimp only at member
          rw [packed] at member
          rw [here]
          rcases mem_append.mp member with ack | queued
          · exact .inr (.inl ⟨nowMs, generates frame (Option.mem_toList.mp ack)⟩)
          · rcases mem_sendQueue (mem_of_mem_take queued) with pending | ⟨-, datagram⟩
            · exact .inl pending
            · refine .inr (.inr ?_)
              cases frame with
              | datagram _ => rfl
              | _ => cases datagram
        · rw [here, commitPacket_number, after, spent_number]
          exact congrArg (· + 1) (congrArg Packet.packetNumber made).symm

theorem generated_ack {ackWanted : Bool} {generated : Option Frame}
    (made : (if ackWanted then (c.generateAck level nowMs).map some else .ok none) =
      .ok generated) (frame : Frame) (member : frame ∈ generated) :
    c.generateAck level nowMs = .ok frame := by
  split at made
  · cases ack : c.generateAck level nowMs with
    | error message => simp [ack, Except.map] at made
    | ok built =>
      simp only [ack, Except.map, Except.ok.injEq] at made
      rw [← made, Option.mem_some_iff] at member
      rw [member]
  · cases made
    cases member

theorem assembleLoop_builds (nowMs : Nat) (seals : Nat → Nat → Bool) (fuel : Nat)
    (c : Connection) (armed : c.levelCanSend level = true) (ackWanted : Bool)
    (packets : List Packet) :
    ∃ built, (assembleLoop level nowMs seals fuel c ackWanted packets).2.1 = packets ++ built ∧
      Builds rules c (assembleLoop level nowMs seals fuel c ackWanted packets).1 built := by
  induction fuel generalizing c ackWanted packets with
  | zero => exact Builds.none packets
  | succ fuel ih =>
    rw [assembleLoop]
    split
    · split
      · exact Builds.none packets
      · rename_i generated made
        have generates := generated_ack made
        have plain : ∀ frame ∈ generated, frame.isAckEliciting = false :=
          fun frame member => generateAck_plain (generates frame member)
        have turn : Changes rules c (c.assemblePacket level nowMs seals generated).connection :=
          assemblePacket_changes armed plain nowMs seals
        have same : Changes { rules with drop := fun _ _ => False } c
            (c.assemblePacket level nowMs seals generated).connection :=
          assemblePacket_changes armed plain nowMs seals
        split
        · exact Builds.none packets
        · exact Builds.none packets
        · rename_i next packet sent
          rw [sent] at turn same
          obtain ⟨-, from_, number⟩ := assemblePacket_made generates sent
          have first : Builds rules c next [packet] := by
            intro other member
            cases mem_singleton.mp member
            exact ⟨c, next, .refl, from_, turn, number, .refl⟩
          split
          · exact ⟨[packet], rfl, first⟩
          · have still : next.levelCanSend level = true :=
              Changes.armed same (fun _ _ => id) armed
            have rest : Changes rules next
                (assembleLoop level nowMs seals fuel next false (packets ++ [packet])).1 :=
              assembleLoop_changes nowMs seals fuel next still false _
            obtain ⟨built, appended, later⟩ := ih next still false (packets ++ [packet])
            refine ⟨packet :: built, ?_, ?_⟩
            · rw [appended, append_assoc]
              rfl
            · exact Builds.append (first.later rest) (later.earlier turn)
    · exact Builds.none packets

theorem buildDatagramsForLevel_builds (c : Connection) (level : Level) (nowMs : Nat)
    (seals : Nat → Nat → Bool) (packets : List Packet) :
    ∃ built, (c.buildDatagramsForLevel level nowMs seals packets).2.1 = packets ++ built ∧
      Builds rules c (c.buildDatagramsForLevel level nowMs seals packets).1 built := by
  unfold buildDatagramsForLevel
  split
  · exact Builds.none packets
  · rename_i armed
    have staged : Changes rules c (c.stageLevel level) := stageLevel_changes c level
    have same : Changes { rules with drop := fun _ _ => False } c (c.stageLevel level) :=
      stageLevel_changes c level
    have still : (c.stageLevel level).levelCanSend level = true :=
      Changes.armed same (fun _ _ => id) (by simpa using armed)
    obtain ⟨built, appended, builds⟩ := assembleLoop_builds nowMs seals
      (((c.stageLevel level).sendQueue level).length + 2) (c.stageLevel level) still
      ((c.stageLevel level).ackWanted level nowMs) packets
    exact ⟨built, appended, builds.earlier staged⟩

theorem buildLevels_builds (nowMs : Nat) (seals : Nat → Nat → Bool) (levels : List Level)
    (c : Connection) (packets : List Packet) :
    ∃ built, (buildLevels nowMs seals levels c packets).2.1 = packets ++ built ∧
      Builds rules c (buildLevels nowMs seals levels c packets).1 built := by
  induction levels generalizing c packets with
  | nil => exact Builds.none packets
  | cons level rest ih =>
    have turn : Changes rules c (c.buildDatagramsForLevel level nowMs seals packets).1 :=
      buildDatagramsForLevel_changes c level nowMs seals packets
    have first : ∃ built,
        (c.buildDatagramsForLevel level nowMs seals packets).2.1 = packets ++ built ∧
          Builds rules c (c.buildDatagramsForLevel level nowMs seals packets).1 built :=
      buildDatagramsForLevel_builds c level nowMs seals packets
    rw [buildLevels]
    split
    · exact Builds.none packets
    · split
      · rename_i failed
        rw [failed] at first
        exact first
      · rename_i next more finished
        rw [finished] at first turn
        obtain ⟨built, appended, builds⟩ := first
        obtain ⟨later, extended, further⟩ := ih next more
        have onward : Changes rules next (buildLevels nowMs seals rest next more).1 :=
          buildLevels_changes nowMs seals rest next more
        refine ⟨built ++ later, ?_, (builds.later onward).append (further.earlier turn)⟩
        rw [extended, ← append_assoc, ← appended]

/-- A packet outside the assembly loop carries frames of its own. -/
theorem encodePacket_builds {frames : List Frame}
    {ackEliciting trackGlobalLoss : Bool} {maxWireBytes : Nat} {seals : Nat → Nat → Bool}
    {packet : Packet} (armed : c.levelCanSend level = true)
    (untracked : (ackEliciting && trackGlobalLoss) = false)
    (direct : ∀ frame ∈ frames, frame.isDirect = true)
    (sent : c.encodePacket level frames ackEliciting nowMs seals maxWireBytes trackGlobalLoss =
      .sent d packet) : Builds rules c d [packet] := by
  intro other member
  cases mem_singleton.mp member
  obtain ⟨made, after⟩ := encodePacket_sent sent
  have here : packet.level = level := congrArg Packet.level made
  refine ⟨c, d, .refl, ⟨?_, ?_, ?_, fun frame member => ?_⟩,
    encodePacket_spends armed untracked sent, ?_, .refl⟩
  · rw [here]
    exact congrArg Packet.keys made
  · rw [here]
    exact congrArg Packet.keyPhase made
  · rw [here]
    exact congrArg Packet.packetNumber made
  · rw [made] at member
    exact .inr (.inr (direct frame member))
  · rw [here, after, spent_number]
    exact congrArg (· + 1) (congrArg Packet.packetNumber made).symm

theorem buildCloseDatagram_builds (c : Connection) (clock : Clock) (seals : Nat → Nat → Bool) :
    Builds rules c (c.buildCloseDatagram clock seals).1
      (c.buildCloseDatagram clock seals).2.1 := by
  unfold buildCloseDatagram
  split
  · exact .nil
  · dsimp only
    split
    · exact .nil
    · rename_i level chosen
      have armed := levelCanSend_of_chosen chosen
      split
      · exact .nil
      · exact .nil
      · rename_i next packet encoded
        have built : Builds rules c next [packet] := by
          refine encodePacket_builds armed rfl (fun frame member => ?_) encoded
          rw [mem_singleton.mp member]
          repeat' split
          all_goals rfl
        exact built.later (Quiet.changes ⟨rfl, rfl, rfl, fun _ armed => armed⟩)

theorem buildPathControlDatagram_builds (c : Connection) (response : Bool) (controlData : Bytes)
    (nowMs maxWireBytes : Nat) (seals : Nat → Nat → Bool) :
    Builds rules c (c.buildPathControlDatagram response controlData nowMs maxWireBytes seals).1
      (c.buildPathControlDatagram response controlData nowMs maxWireBytes seals).2.1 := by
  unfold buildPathControlDatagram
  split
  · exact .nil
  · rename_i able
    simp only [not_or, Option.isNone_iff_eq_none, not_not] at able
    have armed : c.levelCanSend .application = true := by
      unfold Connection.levelCanSend
      rw [Bool.or_eq_true, Option.isSome_iff_ne_none]
      exact .inl able.2.2
    dsimp only
    split
    · exact .nil
    · exact .nil
    · rename_i next packet encoded
      refine encodePacket_builds armed rfl (fun frame member => ?_) encoded
      rw [mem_singleton.mp member]
      split <;> rfl

/-- Every input builds its packets from states on its way. -/
theorem perform_builds (c : Connection) (input : Input) :
    Builds rules c (c.perform input) (c.builds input) := by
  cases input with
  | buildDatagrams clock seals =>
    have refilled : Quiet c { c with
        driver.pacing := refillPacing c.driver.pacing clock.nowMs } :=
      ⟨rfl, rfl, rfl, fun _ armed => armed⟩
    unfold builds perform buildDatagrams
    dsimp only
    split
    · exact .nil
    · exact .nil
    · exact (buildCloseDatagram_builds _ clock seals).earlier refilled.changes
    · obtain ⟨built, appended, builds⟩ := buildLevels_builds clock.nowMs seals
        [.initial, .handshake, .application]
        { c with driver.pacing := refillPacing c.driver.pacing clock.nowMs } []
      rw [appended]
      exact builds.earlier refilled.changes
  | buildPathControlDatagram response controlData nowMs maxWireBytes seals =>
    exact buildPathControlDatagram_builds c response controlData nowMs maxWireBytes seals
  | _ => exact .nil

end Connection
end SwStack.Quic
