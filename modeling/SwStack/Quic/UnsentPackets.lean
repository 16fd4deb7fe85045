import SwStack.Quic.PacketAttempts

/-! Packets that are refused or withheld while a level is built. In every state a connection
reaches they leave the queues in order and nothing recorded. -/
namespace SwStack.Quic

open SwStack.Lib List

namespace Connection

variable {c : Connection}

theorem reserveDatagram_bytes (limits : Limits) (nextBytes : Nat) (frames : List Bytes) :
    (reserveDatagram limits nextBytes frames (frames.map List.length).sum).2.1 =
      ((reserveDatagram limits nextBytes frames (frames.map List.length).sum).1.map
        List.length).sum := by
  induction frames with
  | nil => rfl
  | cons oldest rest ih =>
    rw [reserveDatagram]
    split
    · split
      · have shed : ((oldest :: rest).map List.length).sum - oldest.length =
            (rest.map List.length).sum := by
          rw [map_cons, sum_cons, Nat.add_sub_cancel_left]
        rw [shed, ih]
      · rfl
    · rfl

theorem QueuesApart.queueDatagramFrame (apart : QueuesApart c) (data : Bytes) :
    QueuesApart (c.queueDatagramFrame data).1 := by
  have reserved := reserveDatagram_bytes c.setup.limits data.length
    c.driver.datagrams.pendingFrames
  rw [← apart.bytes] at reserved
  unfold Connection.queueDatagramFrame
  dsimp only
  split
  · exact apart
  split
  · exact apart
  split
  · exact apart
  split
  · exact apart
  · rcases made : reserveDatagram c.setup.limits data.length c.driver.datagrams.pendingFrames
      c.driver.datagrams.pendingFrameBytes with ⟨frames, bytes, fits⟩
    rw [made] at reserved
    dsimp only at reserved
    cases fits with
    | false => exact ⟨reserved, apart.pending, apart.recorded⟩
    | true =>
      refine ⟨?_, apart.pending, apart.recorded⟩
      dsimp only
      rw [reserved, map_append, sum_append]
      simp

theorem QueuesApart.queueFrame (apart : QueuesApart c) (level : Level) (frame : Frame) :
    QueuesApart (c.queueFrame level frame) := by
  unfold Connection.queueFrame
  split
  · exact apart.queueDatagramFrame _
  · rename_i plain
    have kept : QueuesApart (c.withQueues level ((c.spaces level).pendingFrames ++ [frame])
        (c.spaces level).probesPending c.driver.datagrams) := by
      refine apart.withQueues _ (fun here queued member => ?_) apart.bytes
      rcases mem_append.mp member with old | new
      · rw [here] at old
        exact apart.pending queued old
      · rw [mem_singleton.mp new]
        cases frame with
        | datagram data => exact absurd rfl (plain data here)
        | _ => rfl
    exact kept

theorem QueuesApart.dropLevelKeys (apart : QueuesApart c) (level : Level) :
    QueuesApart (c.dropLevelKeys level) := by
  have cleared := (Leaves.clearSpace (by decide) c level).sameOutlet.queuesApart apart
  unfold Connection.dropLevelKeys
  split
  · exact ⟨rfl, cleared.pending, cleared.recorded⟩
  · exact cleared

theorem QueuesApart.buildDatagrams (apart : QueuesApart c) (clock : Clock)
    (seals : Nat → Nat → Bool) : QueuesApart (c.buildDatagrams clock seals).1 := by
  have refilled : QueuesApart { c with
      driver.pacing := refillPacing c.driver.pacing clock.nowMs } := apart.of_spaces rfl rfl rfl
  have closing (c : Connection) (apart : QueuesApart c) :
      QueuesApart (c.buildCloseDatagram clock seals).1 := by
    unfold buildCloseDatagram
    split
    · exact apart
    dsimp only
    split
    · exact apart
    · split
      · exact apart
      · exact apart.of_spaces rfl rfl rfl
      · rename_i next packet sent
        have spent := (Leaves.encodePacket sent (.inr rfl)).sameOutlet.queuesApart apart
        exact spent.of_spaces rfl rfl rfl
  unfold Connection.buildDatagrams
  dsimp only
  split
  · exact refilled
  · exact refilled
  · exact closing _ refilled
  · have rule := QueuesApart.buildRule clock.nowMs seals
    exact @BuildRule.buildLevels _ _ _ rule _ _ [] refilled

theorem QueuesApart.processPathResponse (apart : QueuesApart c) (data : Bytes) :
    QueuesApart (c.processPathResponse data) := by
  have fresh := (Leaves.resetForNewPath c).sameOutlet.queuesApart apart
  unfold Connection.processPathResponse
  split
  · split
    · exact fresh.of_spaces rfl rfl rfl
    · exact apart.of_spaces rfl rfl rfl
  · exact apart

theorem QueuesApart.perform (apart : QueuesApart c) (input : Input) :
    QueuesApart (c.perform input) := by
  by_cases other : changesOutlet input = false
  · exact (SameOutlet.perform c other).queuesApart apart
  cases input with
  | queueDatagramFrame data => exact apart.queueDatagramFrame data
  | queueFrame level frame => exact apart.queueFrame level frame
  | close =>
    unfold Connection.perform close
    dsimp only
    split
    · exact apart
    · exact apart.of_spaces rfl rfl rfl
  | buildDatagrams clock seals => exact apart.buildDatagrams clock seals
  | onTimeout clock =>
    unfold Connection.perform onTimeout
    dsimp only
    split
    · exact apart.of_spaces rfl rfl rfl
    split
    · exact apart.of_spaces rfl rfl rfl
    · exact ((Leaves.firePto clock _ _).trans ((Leaves.firePto clock _ _).trans
        (Leaves.firePto clock _ _))).sameOutlet.queuesApart apart
  | dropLevelKeys level => exact apart.dropLevelKeys level
  | commitPathMigration =>
    have fresh := (Leaves.resetForNewPath c).sameOutlet.queuesApart apart
    exact fresh.of_spaces rfl rfl rfl
  | beginPathValidation => exact apart.of_spaces rfl rfl rfl
  | cancelPathValidation => exact apart.of_spaces rfl rfl rfl
  | onPeerAddressChanged receivedBytes challenge =>
    unfold Connection.perform onPeerAddressChanged
    dsimp only
    split
    · exact apart
    · refine (Leaves.enqueue _ .application fun _ => rfl).sameOutlet.queuesApart ?_
      exact apart.of_spaces rfl rfl rfl
  | creditDatagram => exact apart.of_spaces rfl rfl rfl
  | statelessReset => exact apart.of_spaces rfl rfl rfl
  | processFrame level mode clock frame =>
    cases frame with
    | connectionClose => exact apart.of_spaces rfl rfl rfl
    | pathResponse data =>
      unfold Connection.perform Connection.processFrame
      dsimp only
      split
      · exact apart.processPathResponse data
      · exact apart
    | _ => exact absurd rfl other
  | _ => exact absurd rfl other

theorem QueuesApart.start (setup : Setup) : QueuesApart (start setup) where
  bytes := rfl
  pending := fun _ member => nomatch member
  recorded := fun _ recorded => by
    obtain ⟨_, _, member, _⟩ := recorded
    cases member

theorem QueuesApart.of_run {setup : Setup} (reached : Run allowed setup c) : QueuesApart c := by
  refine reached.invariant (QueuesApart.start setup) fun apart _ stepped => ?_
  cases stepped
  exact apart.perform _

variable {before : Connection} {level : Level} {nowMs : Nat} {seals : Nat → Nat → Bool}
  {packets built : List Packet} {wanted : Bool}

theorem QueuesApart.turn {start : Connection} {ackWanted : Bool} (apart : QueuesApart start)
    (turn : Turn level nowMs seals start ackWanted packets before wanted built) :
    QueuesApart before := by
  induction turn with
  | start => exact apart
  | sent _ _ _ made _ ih => exact (buildRule nowMs seals).sent _ _ [] _ _ _ ih made

theorem buildDatagramsForLevel_turn (canSend : c.levelCanSend level = true)
    (turn : Turn level nowMs seals (c.stageLevel level)
      ((c.stageLevel level).ackWanted level nowMs) packets before wanted built) :
    ∃ fuel, c.buildDatagramsForLevel level nowMs seals packets =
      assembleLoop level nowMs seals (fuel + 1) before wanted built := by
  have enough : (c.stageLevel level).turnsLeft level ((c.stageLevel level).ackWanted level nowMs) <
      ((c.stageLevel level).sendQueue level).length + 2 := by
    unfold turnsLeft
    have := Bool.toNat_le ((c.stageLevel level).ackWanted level nowMs)
    omega
  obtain ⟨rest, left, same⟩ := turn.assembleLoop enough
  obtain ⟨fuel, rfl⟩ := Nat.exists_eq_add_of_lt left
  refine ⟨before.turnsLeft level wanted + fuel, ?_⟩
  unfold buildDatagramsForLevel
  rw [canSend, Bool.not_true, if_neg Bool.false_ne_true, same]

/-- A withheld packet gives back, in order, what may be sent again. -/
theorem withheld_frames {count : Nat} (generates : before.ackFrame level nowMs wanted = .ok frame) :
    (frame.toList ++ (before.sendQueue level).take count).filter Frame.isRetransmittable =
      ((before.spaces level).pendingFrames.take count).filter Frame.isRetransmittable := by
  have plain : frame.toList.filter Frame.isRetransmittable = [] := by
    rw [filter_eq_nil_iff]
    intro ack member
    unfold ackFrame at generates
    cases wanted with
    | false =>
      cases generates
      cases member
    | true =>
      rw [if_pos rfl] at generates
      cases made : before.generateAck level nowMs with
      | error message =>
        rw [made] at generates
        cases generates
      | ok only =>
        rw [made] at generates
        cases generates
        rw [mem_singleton.mp member]
        exact fun again => Bool.false_ne_true
          ((generateAck_plain made).symm.trans (Frame.isAckEliciting_of_isRetransmittable again))
  rw [filter_append, plain, nil_append, filter_take_sendQueue]

/-- A packet that cannot be encoded or is withheld, at any turn of the loop, leaves every record
as it was and its frames in the queues. -/
theorem unsent_packet_leaves_nothing {setup : Setup} (reached : Run (fun _ _ => True) setup c)
    (canSend : c.levelCanSend level = true)
    (turn : Turn level nowMs seals (c.stageLevel level)
      ((c.stageLevel level).ackWanted level nowMs) packets before wanted built)
    (goes : before.goesOn level wanted built = true) :
    (∀ message, before.ackFrame level nowMs wanted = .error message →
      c.buildDatagramsForLevel level nowMs seals packets = (before, built, some message)) ∧
    ∀ frame, before.ackFrame level nowMs wanted = .ok frame →
      (∀ after message, before.assemblePacket level nowMs seals frame = .failed after message →
        c.buildDatagramsForLevel level nowMs seals packets = (after, built, some message) ∧
        NoPhantom before after ∧
        (∀ other, (after.spaces other).pendingFrames = (before.spaces other).pendingFrames) ∧
        after.driver.datagrams = before.driver.datagrams) ∧
      (∀ after, before.assemblePacket level nowMs seals frame = .finished after →
        c.buildDatagramsForLevel level nowMs seals packets = (after, built, none) ∧
        NoPhantom before after ∧
        (∀ other ≠ level,
          (after.spaces other).pendingFrames = (before.spaces other).pendingFrames) ∧
        ∃ count, (before.packing level frame).frames =
            frame.toList ++ (before.sendQueue level).take count ∧
          (after.spaces level).pendingFrames =
            ((before.spaces level).pendingFrames.take count).filter Frame.isRetransmittable ++
              (before.spaces level).pendingFrames.drop count) := by
  obtain ⟨fuel, same⟩ := buildDatagramsForLevel_turn canSend turn
  have apart := ((Leaves.stageLevel (by decide) c level).sameOutlet.queuesApart
    (QueuesApart.of_run reached)).turn turn
  rw [same]
  refine ⟨fun message failed => ?_, fun frame generates => ⟨fun after message made => ?_,
    fun after made => ?_⟩⟩
  · unfold goesOn at goes
    unfold ackFrame at failed
    rw [assembleLoop, if_pos goes, failed]
  · rw [assembleLoop_goesOn goes generates, made]
    obtain ⟨probesPending, rfl⟩ := apart.failed made
    exact ⟨rfl, .withQueues .., pendingFrames_withQueues_self before level _ _, rfl⟩
  · rw [assembleLoop_goesOn goes generates, made]
    obtain ⟨count, probesPending, frames, rfl⟩ := assemblePacket_finished made
    refine ⟨rfl, .withQueues .., fun other different => ?_, count, frames, ?_⟩
    · exact pendingFrames_withQueues_of_ne different ..
    · rw [withQueues_pending, frames, withheld_frames generates]

/-- Ten bytes have come from a new address, too few to answer with a path challenge. -/
def stranded : Connection :=
  ((start (.default .client)).perform
    (.setLevelKeys .application ⟨true, 0⟩ ⟨true, 0⟩)).perform
      (.onPeerAddressChanged 10 [1, 2, 3, 4, 5, 6, 7, 8])

theorem unsent_packet_stranded : ∃ after,
    stranded.buildDatagramsForLevel .application 0 (fun _ _ => true) [] = (after, [], none) ∧
      NoPhantom stranded after := by
  have reached : Run (fun _ _ => True) (.default .client) stranded :=
    .next (.next .refl trivial rfl) trivial rfl
  have first : Turn .application 0 (fun _ _ => true) (stranded.stageLevel .application)
      ((stranded.stageLevel .application).ackWanted .application 0) [] stranded false [] := .start
  have unsent := unsent_packet_leaves_nothing reached rfl first rfl
  obtain ⟨built, nothing, _⟩ := (unsent.2 none rfl).2
    (stranded.assemblePacket .application 0 (fun _ _ => true) none).connection rfl
  exact ⟨_, built, nothing⟩

end Connection
end SwStack.Quic
