import SwStack.Quic.Leaves
import SwStack.Quic.SendChanges

/-! One packet of the assembly loop at a time: what it takes from the queues, and what is
left when it is sent, withheld or refused. -/
namespace SwStack.Quic

open SwStack.Lib List

namespace Connection

/-- The DATAGRAM queue counts its bytes, and no DATAGRAM frame waits outside it. -/
structure QueuesApart (c : Connection) : Prop where
  bytes : c.driver.datagrams.pendingFrameBytes =
    (c.driver.datagrams.pendingFrames.map List.length).sum
  pending : ∀ frame ∈ c.app.pendingFrames, frame.isDatagram = false
  recorded : ∀ frame, c.Recorded frame → frame.isDatagram = false

/-- A connection with other queues at a level. -/
def withQueues (c : Connection) (level : Level) (pending : List Frame) (probesPending : Nat)
    (datagrams : Datagrams) : Connection :=
  { c.setSpace level { c.spaces level with pendingFrames := pending, probesPending } with
    driver.datagrams := datagrams }

/-- What a packet in flight, a lost one or an acknowledgement still to be sent is known by. -/
structure Bookkeeping where
  nextTxPn : Nat
  loss : LossRecovery
  sentPackets : SortedMap Nat SentRecord
  lastAckElicitingSentMs : Nat
  hasAckElicitingInFlight : Bool
  ackTracker : AckTracker
  ackDeadlineMs : Option Nat
  ackElicitingSinceAck : Nat

end Connection

def Space.bookkeeping (space : Space) : Connection.Bookkeeping :=
  { nextTxPn := space.nextTxPn, loss := space.loss, sentPackets := space.sentPackets
    lastAckElicitingSentMs := space.lastAckElicitingSentMs
    hasAckElicitingInFlight := space.hasAckElicitingInFlight, ackTracker := space.ackTracker
    ackDeadlineMs := space.ackDeadlineMs, ackElicitingSinceAck := space.ackElicitingSinceAck }

namespace Connection

variable {c d : Connection} {level : Level} {nowMs : Nat} {seals : Nat → Nat → Bool}
  {generated : Option Frame}

/-- Nothing is recorded of a packet: not in any space, not in the congestion window, and not in
the budget of the path. -/
structure NoPhantom (before after : Connection) : Prop where
  spaces : ∀ level, (after.spaces level).bookkeeping = (before.spaces level).bookkeeping
  congestion : after.congestion = before.congestion
  path : after.driver.path = before.driver.path
  pacing : after.driver.pacing = before.driver.pacing

theorem NoPhantom.withQueues (c : Connection) (level : Level) (pending : List Frame)
    (probesPending : Nat) (datagrams : Datagrams) :
    NoPhantom c (c.withQueues level pending probesPending datagrams) := by
  refine ⟨fun other => ?_, rfl, rfl, rfl⟩
  change ((c.setSpace level _).spaces other).bookkeeping = _
  rw [setSpace_spaces]
  split
  · rename_i here
    rw [here]
    rfl
  · rfl

def datagramsTaken (c : Connection) (level : Level) (count : Nat) : Datagrams :=
  if level = .application then
    { c.driver.datagrams with
      pendingFrames := c.driver.datagrams.pendingFrames.drop count
      pendingFrameBytes := (c.driver.datagrams.pendingFrames.take count).foldl
        (fun bytes data => bytes - data.length) c.driver.datagrams.pendingFrameBytes }
  else c.driver.datagrams

theorem takeQueued_eq (c : Connection) (level : Level) (count probesPending : Nat) :
    c.takeQueued level count probesPending =
      c.withQueues level ((c.spaces level).pendingFrames.drop count) probesPending
        (c.datagramsTaken level (count - (c.spaces level).pendingFrames.length)) := by
  unfold takeQueued takeDatagrams datagramsTaken withQueues
  split <;> rfl

theorem withQueues_self (c : Connection) (level : Level) :
    c.withQueues level (c.spaces level).pendingFrames (c.spaces level).probesPending
      c.driver.datagrams = c := by
  unfold withQueues
  exact setSpace_self c level

@[simp] theorem withQueues_pending (c : Connection) (level : Level) (pending : List Frame)
    (probesPending : Nat) (datagrams : Datagrams) :
    ((c.withQueues level pending probesPending datagrams).spaces level).pendingFrames =
      pending := by
  change ((c.setSpace level _).spaces level).pendingFrames = pending
  rw [setSpace_spaces, if_pos rfl]

theorem pendingFrames_withQueues_of_ne (different : other ≠ level)
    (c : Connection) (pending : List Frame) (probesPending : Nat) (datagrams : Datagrams) :
    ((c.withQueues level pending probesPending datagrams).spaces other).pendingFrames =
      (c.spaces other).pendingFrames := by
  change ((c.setSpace level _).spaces other).pendingFrames = _
  rw [setSpace_spaces, if_neg different]

theorem pendingFrames_withQueues_self (c : Connection) (level : Level) (probesPending : Nat)
    (datagrams : Datagrams) (other : Level) :
    ((c.withQueues level (c.spaces level).pendingFrames probesPending datagrams).spaces
      other).pendingFrames = (c.spaces other).pendingFrames := by
  by_cases same : other = level
  · rw [same, withQueues_pending]
  · exact pendingFrames_withQueues_of_ne same ..

theorem restoreWithheld_withQueues (c : Connection) (level : Level) (pending : List Frame)
    (probesPending : Nat) (datagrams : Datagrams) (frames : List Frame) :
    (c.withQueues level pending probesPending datagrams).restoreWithheld level frames =
      c.withQueues level (frames.filter Frame.isRetransmittable ++ pending) probesPending
        datagrams := by
  unfold restoreWithheld
  rw [withQueues_pending]
  unfold withQueues
  simp [setSpace, Function.update_idem]

theorem restore_plain (level : Level) (c : Connection)
    (pending : List Frame) (probesPending : Nat) (datagrams : Datagrams)
    (plain : level = .application → ∀ frame ∈ frames, frame.isDatagram = false) :
    frames.foldr (restorePendingFrame level) (c.withQueues level pending probesPending datagrams) =
      c.withQueues level (frames ++ pending) probesPending datagrams := by
  induction frames with
  | nil => rfl
  | cons frame rest ih =>
    rw [foldr_cons, ih fun here other member =>
      plain here other (mem_cons_of_mem _ member)]
    unfold restorePendingFrame
    split
    · have := plain rfl _ mem_cons_self
      cases this
    · rw [withQueues_pending]
      unfold withQueues
      simp [setSpace, Function.update_idem]

/-- DATAGRAM frames go back to their own queue, with their bytes. -/
theorem restore_datagrams (payloads : List Bytes) (c : Connection) (pending : List Frame)
    (probesPending : Nat) (datagrams : Datagrams) :
    (payloads.map Frame.datagram).foldr (restorePendingFrame .application)
        (c.withQueues .application pending probesPending datagrams) =
      c.withQueues .application pending probesPending
        { datagrams with
          pendingFrames := payloads ++ datagrams.pendingFrames
          pendingFrameBytes :=
            datagrams.pendingFrameBytes + (payloads.map List.length).sum } := by
  induction payloads with
  | nil => rfl
  | cons payload rest ih =>
    rw [map_cons, foldr_cons, ih]
    have more : datagrams.pendingFrameBytes + ((payload :: rest).map List.length).sum =
        datagrams.pendingFrameBytes + (rest.map List.length).sum + payload.length := by
      rw [map_cons, sum_cons]
      omega
    rw [more]
    rfl

theorem foldl_sub_lengths (payloads : List Bytes) (bytes : Nat) :
    payloads.foldl (fun bytes data => bytes - data.length) bytes =
      bytes - (payloads.map List.length).sum := by
  induction payloads generalizing bytes with
  | nil => rfl
  | cons payload rest ih =>
    rw [foldl_cons, ih, map_cons, sum_cons]
    omega

theorem sum_lengths_take_drop (payloads : List Bytes) (count : Nat) :
    ((payloads.take count).map List.length).sum + ((payloads.drop count).map List.length).sum =
      (payloads.map List.length).sum := by
  rw [← sum_append, ← map_append, take_append_drop]

/-- All the frames a packet has taken go back where they were. -/
theorem QueuesApart.restore (apart : QueuesApart c) (count probesPending : Nat) :
    ((c.sendQueue level).take count).foldr (restorePendingFrame level)
        (c.takeQueued level count probesPending) =
      c.withQueues level (c.spaces level).pendingFrames probesPending c.driver.datagrams := by
  have plain (here : level = .application) :
      ∀ frame ∈ (c.spaces level).pendingFrames.take count, frame.isDatagram = false := by
    intro frame member
    exact apart.pending frame (by rw [here] at member; exact mem_of_mem_take member)
  rw [takeQueued_eq]
  by_cases here : level = .application
  · unfold sendQueue datagramsTaken
    rw [if_pos here, if_pos here, take_append, ← map_take, foldr_append, here,
      restore_datagrams, ← here, restore_plain level c _ _ _ plain, take_append_drop]
    congr 1
    rw [foldl_sub_lengths]
    have whole := sum_lengths_take_drop c.driver.datagrams.pendingFrames
      (count - (c.spaces level).pendingFrames.length)
    have bytes := apart.bytes
    have same : c.driver.datagrams.pendingFrameBytes -
          ((c.driver.datagrams.pendingFrames.take
            (count - (c.spaces level).pendingFrames.length)).map List.length).sum +
        ((c.driver.datagrams.pendingFrames.take
          (count - (c.spaces level).pendingFrames.length)).map List.length).sum =
        c.driver.datagrams.pendingFrameBytes := by
      omega
    dsimp only
    rw [same, take_append_drop]
  · unfold sendQueue datagramsTaken
    rw [if_neg here, if_neg here, append_nil, restore_plain level c _ _ _ plain,
      take_append_drop]

theorem packing_frames (c : Connection) (level : Level) (generated : Option Frame) :
    ∃ count, (c.packing level generated).frames =
        generated.toList ++ (c.sendQueue level).take count ∧
      (c.packing level generated).frames.length - generated.toList.length = count := by
  obtain ⟨count, bound, frames, _⟩ := pack_spec c.congestion (c.packetPayloadBudget level)
    (c.sendQueue level)
    { frames := generated.toList
      payloadSize := (generated.toList.map Frame.encodedSize).sum, ackEliciting := false
      probesPending := (c.spaces level).probesPending, tooLarge := false }
  have packed : (c.packing level generated).frames =
      generated.toList ++ (c.sendQueue level).take count := frames
  refine ⟨count, packed, ?_⟩
  rw [packed, length_append, length_take]
  omega

/-- A packet that cannot be encoded leaves the queues as they were. -/
theorem QueuesApart.failed (apart : QueuesApart c) {message : String}
    (made : c.assemblePacket level nowMs seals generated = .failed d message) :
    ∃ probesPending, d = c.withQueues level (c.spaces level).pendingFrames probesPending
      c.driver.datagrams := by
  obtain ⟨count, frames, taken⟩ := packing_frames c level generated
  unfold assemblePacket at made
  split at made
  · cases made
    exact ⟨_, (withQueues_self c level).symm⟩
  split at made
  · cases made
  · rw [taken, sendPacking] at made
    split at made
    · cases made
      rw [frames, drop_left]
      exact ⟨_, apart.restore count _⟩
    · cases made
    · cases made

/-- A packet that is withheld leaves its frames that may be sent again in front of the rest. -/
theorem assemblePacket_finished
    (made : c.assemblePacket level nowMs seals generated = .finished d) :
    ∃ count probesPending, (c.packing level generated).frames =
        generated.toList ++ (c.sendQueue level).take count ∧
      d = c.withQueues level ((c.packing level generated).frames.filter Frame.isRetransmittable ++
        (c.spaces level).pendingFrames.drop count) probesPending
          (c.datagramsTaken level (count - (c.spaces level).pendingFrames.length)) := by
  obtain ⟨count, frames, taken⟩ := packing_frames c level generated
  unfold assemblePacket at made
  split at made
  · cases made
  split at made
  · rename_i nothing
    cases made
    have empty : (c.packing level generated).frames = [] := List.isEmpty_iff.mp nothing
    have drained : generated.toList = [] := (append_eq_nil_iff.mp (frames ▸ empty)).1
    refine ⟨0, (c.spaces level).probesPending, by rw [empty, drained]; rfl, ?_⟩
    have untouched : c.datagramsTaken level (0 - (c.spaces level).pendingFrames.length) =
        c.driver.datagrams := by
      unfold datagramsTaken
      rw [Nat.zero_sub]
      split <;> rfl
    rw [empty, untouched]
    exact (withQueues_self c level).symm
  · rw [taken, sendPacking] at made
    split at made
    · cases made
    · cases made
      refine ⟨count, (c.packing level generated).probesPending, frames, ?_⟩
      rw [takeQueued_eq, restoreWithheld_withQueues]
    · cases made

variable {packet : Packet}

/-- A packet that is sent has taken frames, and is committed in the state without them. -/
theorem assemblePacket_sent (made : c.assemblePacket level nowMs seals generated = .sent d packet) :
    ∃ count probesPending next,
      (c.packing level generated).frames = generated.toList ++ (c.sendQueue level).take count ∧
      (c.packing level generated).frames ≠ [] ∧
      (c.takeQueued level count probesPending).encodePacket level
        (c.packing level generated).frames (c.packing level generated).ackEliciting nowMs seals
        maxUInt64 true = .sent next packet ∧
      d = next.commitPacket level generated packet.size := by
  obtain ⟨count, frames, taken⟩ := packing_frames c level generated
  unfold assemblePacket at made
  split at made
  · cases made
  split at made
  · cases made
  · rename_i filled
    rw [taken, sendPacking] at made
    split at made
    · cases made
    · cases made
    · rename_i next _ encoded
      cases made
      exact ⟨count, _, next, frames, fun empty => filled (List.isEmpty_iff.mpr empty), encoded, rfl⟩

theorem sendQueue_congr
    (pending : (d.spaces level).pendingFrames = (c.spaces level).pendingFrames)
    (datagrams : d.driver.datagrams = c.driver.datagrams) :
    d.sendQueue level = c.sendQueue level := by
  unfold sendQueue
  rw [pending, datagrams]

theorem sendQueue_sent {count probesPending : Nat} {frames : List Frame}
    {ackEliciting : Bool} {next : Connection}
    (encoded : (c.takeQueued level count probesPending).encodePacket level frames ackEliciting nowMs
      seals maxUInt64 true = .sent next packet) :
    (next.commitPacket level generated packet.size).sendQueue level =
      (c.sendQueue level).drop count := by
  have taken : (c.takeQueued level count probesPending).sendQueue level =
      (c.sendQueue level).drop count := by
    rw [takeQueued_eq, sendQueue, sendQueue, withQueues_pending, drop_append]
    congr 1
    unfold datagramsTaken
    split
    · exact (map_drop ..)
    · exact drop_nil.symm
  have encodes : next.sendQueue level =
      (c.takeQueued level count probesPending).sendQueue level := by
    obtain ⟨_, rfl⟩ := encodePacket_sent encoded
    split
    · exact sendQueue_congr (by unfold trackPacket; simp) rfl
    · exact sendQueue_congr (by unfold spendPacketNumber; simp) rfl
  rw [← taken, ← encodes]
  unfold commitPacket
  dsimp only
  split
  · exact sendQueue_congr (by unfold commitAck; simp) rfl
  · rfl

/-- Whether the loop builds another packet. -/
def goesOn (c : Connection) (level : Level) (ackWanted : Bool) (packets : List Packet) : Bool :=
  (c.hasPendingFrames level || ackWanted) &&
    (c.setup.limits.maxDatagramsPerBuild = 0 ||
      packets.length < c.setup.limits.maxDatagramsPerBuild) &&
    (c.driver.pacing.ratePerMillisecond = 0 || 0 < c.driver.pacing.tokens)

/-- The ACK frame a packet starts with. -/
def ackFrame (c : Connection) (level : Level) (nowMs : Nat) (ackWanted : Bool) :
    Except String (Option Frame) :=
  if ackWanted then (c.generateAck level nowMs).map some else .ok none

/-- Whether a packet just sent was the last one. -/
def sentLast (c : Connection) (level : Level) : Bool :=
  !c.hasPendingFrames level || (!c.congestion.canSend 64 && (c.spaces level).probesPending = 0)

/-- The loop has sent packets and reached a state in which it looks at the next one. -/
inductive Turn (level : Level) (nowMs : Nat) (seals : Nat → Nat → Bool) (start : Connection)
    (ackWanted : Bool) (packets : List Packet) : Connection → Bool → List Packet → Prop where
  | start : Turn level nowMs seals start ackWanted packets start ackWanted packets
  | sent {before after : Connection} {wanted : Bool} {built : List Packet}
      {frame : Option Frame} {packet : Packet} :
      Turn level nowMs seals start ackWanted packets before wanted built →
      before.goesOn level wanted built = true → before.ackFrame level nowMs wanted = .ok frame →
      before.assemblePacket level nowMs seals frame = .sent after packet →
      after.sentLast level = false →
      Turn level nowMs seals start ackWanted packets after false (built ++ [packet])

/-- What the loop does once a turn has ended. -/
def afterTurn (level : Level) (nowMs : Nat) (seals : Nat → Nat → Bool) (fuel : Nat)
    (packets : List Packet) : Assembled → Connection × List Packet × Option String
  | .failed c message => (c, packets, some message)
  | .finished c => (c, packets, none)
  | .sent c packet =>
    if c.sentLast level then (c, packets ++ [packet], none)
    else assembleLoop level nowMs seals fuel c false (packets ++ [packet])

variable {wanted : Bool} {packets : List Packet}

theorem assembleLoop_goesOn (goes : c.goesOn level wanted packets = true)
    (generates : c.ackFrame level nowMs wanted = .ok frame) :
    assembleLoop level nowMs seals (fuel + 1) c wanted packets =
      afterTurn level nowMs seals fuel packets (c.assemblePacket level nowMs seals frame) := by
  unfold goesOn at goes
  unfold ackFrame at generates
  rw [assembleLoop, if_pos goes, generates]
  dsimp only
  cases c.assemblePacket level nowMs seals frame <;> rfl

/-- The packets a level can still send. -/
def turnsLeft (c : Connection) (level : Level) (ackWanted : Bool) : Nat :=
  (c.sendQueue level).length + ackWanted.toNat

theorem turnsLeft_sent {frame : Option Frame}
    (generates : c.ackFrame level nowMs wanted = .ok frame)
    (made : c.assemblePacket level nowMs seals frame = .sent d packet) :
    d.turnsLeft level false < c.turnsLeft level wanted := by
  obtain ⟨count, probesPending, next, frames, filled, encoded, rfl⟩ := assemblePacket_sent made
  unfold turnsLeft
  rw [sendQueue_sent encoded, length_drop]
  rw [frames] at filled
  cases wanted with
  | true =>
    rw [Bool.toNat_true, Bool.toNat_false]
    omega
  | false =>
    cases generates
    have taken : 0 < ((c.sendQueue level).take count).length := length_pos_iff.mpr filled
    rw [length_take] at taken
    rw [Bool.toNat_false]
    omega

/-- The loop does what is left for it after the turns it has made. -/
theorem Turn.assembleLoop {start : Connection} {ackWanted : Bool}
    {built : List Packet} (turn : Turn level nowMs seals start ackWanted packets c wanted
      built) {fuel : Nat} (enough : start.turnsLeft level ackWanted < fuel) :
    ∃ rest, c.turnsLeft level wanted < rest ∧
      assembleLoop level nowMs seals fuel start ackWanted packets =
        assembleLoop level nowMs seals rest c wanted built := by
  induction turn with
  | start => exact ⟨fuel, enough, rfl⟩
  | sent _ goes generates made more ih =>
    obtain ⟨rest, still, same⟩ := ih
    cases rest with
    | zero => omega
    | succ rest =>
      refine ⟨rest, ?_, ?_⟩
      · have := turnsLeft_sent generates made
        omega
      · rw [same, assembleLoop_goesOn goes generates, made, afterTurn, more]
        rfl

/-- A property of the state and the packets so far that staging and every turn keep. -/
structure BuildRule (nowMs : Nat) (seals : Nat → Nat → Bool)
    (holds : Connection → List Packet → Prop) : Prop where
  staged : ∀ c packets level, holds c packets → holds (c.stageLevel level) packets
  failed : ∀ c d packets level generated message, holds c packets →
    c.assemblePacket level nowMs seals generated = .failed d message → holds d packets
  finished : ∀ c d packets level generated, holds c packets →
    c.assemblePacket level nowMs seals generated = .finished d → holds d packets
  sent : ∀ c d packets level generated packet, holds c packets →
    c.assemblePacket level nowMs seals generated = .sent d packet → holds d (packets ++ [packet])

theorem BuildRule.assembleLoop
    (rule : BuildRule nowMs seals holds) (fuel : Nat) (wanted : Bool) (before : holds c packets) :
    holds (assembleLoop level nowMs seals fuel c wanted packets).1
      (assembleLoop level nowMs seals fuel c wanted packets).2.1 := by
  induction fuel generalizing c wanted packets with
  | zero => exact before
  | succ fuel ih =>
    cases goes : c.goesOn level wanted packets with
    | false =>
      unfold goesOn at goes
      rw [Connection.assembleLoop, if_neg (Bool.eq_false_iff.mp goes)]
      exact before
    | true =>
      cases generates : c.ackFrame level nowMs wanted with
      | error message =>
        unfold goesOn at goes
        unfold ackFrame at generates
        rw [Connection.assembleLoop, if_pos goes, generates]
        exact before
      | ok frame =>
        rw [assembleLoop_goesOn goes generates]
        cases made : c.assemblePacket level nowMs seals frame with
        | failed d message => exact rule.failed c d packets level frame message before made
        | finished d => exact rule.finished c d packets level frame before made
        | sent d packet =>
          have after := rule.sent c d packets level frame packet before made
          rw [afterTurn]
          split
          · exact after
          · exact ih false after

theorem BuildRule.buildDatagramsForLevel {holds : Connection → List Packet → Prop}
    (rule : BuildRule nowMs seals holds) {packets : List Packet} (before : holds c packets) :
    holds (c.buildDatagramsForLevel level nowMs seals packets).1
      (c.buildDatagramsForLevel level nowMs seals packets).2.1 := by
  unfold Connection.buildDatagramsForLevel
  split
  · exact before
  · exact rule.assembleLoop _ _ (rule.staged c packets level before)

theorem BuildRule.buildLevels {holds : Connection → List Packet → Prop}
    (rule : BuildRule nowMs seals holds) (levels : List Level) {c : Connection}
    {packets : List Packet} (before : holds c packets) :
    holds (buildLevels nowMs seals levels c packets).1
      (buildLevels nowMs seals levels c packets).2.1 := by
  induction levels generalizing c packets with
  | nil => exact before
  | cons level rest ih =>
    have built := @BuildRule.buildDatagramsForLevel _ level _ _ _ rule packets before
    rw [Connection.buildLevels]
    split
    · exact before
    · rcases made : c.buildDatagramsForLevel level nowMs seals packets with ⟨d, more, _ | message⟩
      · rw [made] at built
        exact ih built
      · rw [made] at built
        exact built

theorem SameOutlet.queuesApart (same : SameOutlet c d) (apart : QueuesApart c) :
    QueuesApart d where
  bytes := by
    have bytes := congrArg Outlet.datagramBytes same.outlet
    have datagrams := congrArg Outlet.datagrams same.outlet
    dsimp only [Connection.outlet] at bytes datagrams
    rw [bytes, datagrams]
    exact apart.bytes
  pending := fun frame member => by
    by_contra datagram
    rw [Bool.not_eq_false] at datagram
    rcases same.pending frame member datagram with old | recorded
    · rw [apart.pending frame old] at datagram
      cases datagram
    · rw [apart.recorded frame recorded] at datagram
      cases datagram
  recorded := fun frame member => by
    by_contra datagram
    rw [Bool.not_eq_false] at datagram
    rw [apart.recorded frame (same.recorded frame member datagram)] at datagram
    cases datagram

theorem QueuesApart.of_spaces (apart : QueuesApart c)
    (datagrams : d.driver.datagrams.pendingFrames = c.driver.datagrams.pendingFrames)
    (bytes : d.driver.datagrams.pendingFrameBytes = c.driver.datagrams.pendingFrameBytes)
    (spaces : d.spaces = c.spaces) : QueuesApart d where
  bytes := by rw [bytes, datagrams, apart.bytes]
  pending := by rw [app, spaces]; exact apart.pending
  recorded := by unfold Recorded; rw [spaces]; exact apart.recorded

theorem QueuesApart.withQueues (apart : QueuesApart c) {pending : List Frame}
    {datagrams : Datagrams} (probesPending : Nat)
    (plain : level = .application → ∀ frame ∈ pending, frame.isDatagram = false)
    (bytes : datagrams.pendingFrameBytes = (datagrams.pendingFrames.map List.length).sum) :
    QueuesApart (c.withQueues level pending probesPending datagrams) where
  bytes := bytes
  pending := fun frame member => by
    change frame ∈ ((c.setSpace level _).spaces .application).pendingFrames at member
    rw [setSpace_spaces] at member
    split at member
    · rename_i here
      exact plain here.symm frame member
    · exact apart.pending frame member
  recorded := fun frame ⟨other, entry, member, occurs⟩ => by
    change entry ∈ ((c.setSpace level _).spaces other).sentPackets.entries at member
    rw [setSpace_spaces] at member
    split at member
    · exact apart.recorded frame ⟨level, entry, member, occurs⟩
    · exact apart.recorded frame ⟨other, entry, member, occurs⟩

theorem Frame.isDatagram_of_isRetransmittable {frame : Frame}
    (again : frame.isRetransmittable = true) : frame.isDatagram = false := by
  cases frame <;> first | rfl | cases again

theorem QueuesApart.datagramsTaken (apart : QueuesApart c) (level : Level) (count : Nat) :
    (c.datagramsTaken level count).pendingFrameBytes =
      ((c.datagramsTaken level count).pendingFrames.map List.length).sum := by
  have bytes := apart.bytes
  unfold Connection.datagramsTaken
  split
  · have whole := sum_lengths_take_drop c.driver.datagrams.pendingFrames count
    dsimp only
    rw [foldl_sub_lengths]
    omega
  · exact bytes

theorem QueuesApart.takeQueued (apart : QueuesApart c) (level : Level)
    (count probesPending : Nat) : QueuesApart (c.takeQueued level count probesPending) := by
  rw [takeQueued_eq]
  refine apart.withQueues probesPending (fun here frame member => ?_) (apart.datagramsTaken _ _)
  rw [here] at member
  exact apart.pending frame (mem_of_mem_drop member)

/-- Only frames that may be sent again are recorded of a packet. -/
theorem QueuesApart.trackPacket (apart : QueuesApart c) (level : Level) (frames : List Frame)
    (nowMs size : Nat) : QueuesApart (c.trackPacket level frames nowMs size) where
  bytes := apart.bytes
  pending := fun frame member => by
    change frame ∈ ((c.setSpace level _).spaces .application).pendingFrames at member
    rw [setSpace_spaces] at member
    split at member
    · rename_i here
      exact apart.pending frame (by rw [app, here]; exact member)
    · exact apart.pending frame member
  recorded := fun frame ⟨other, entry, member, occurs⟩ => by
    change entry ∈ ((c.setSpace level _).spaces other).sentPackets.entries at member
    rw [setSpace_spaces] at member
    split at member
    · rcases SortedMap.mem_entries_insert.mp member with new | ⟨_, old⟩
      · rw [new] at occurs
        exact Frame.isDatagram_of_isRetransmittable (mem_filter.mp occurs).2
      · exact apart.recorded frame ⟨level, entry, old, occurs⟩
    · exact apart.recorded frame ⟨other, entry, member, occurs⟩

theorem QueuesApart.buildRule (nowMs : Nat) (seals : Nat → Nat → Bool) :
    BuildRule nowMs seals fun c _ => QueuesApart c where
  staged := fun c _ level apart => (Leaves.stageLevel (by decide) c level).sameOutlet.queuesApart apart
  failed := fun c d _ level generated message apart made => by
    obtain ⟨probesPending, rfl⟩ := apart.failed made
    refine apart.withQueues probesPending (fun here frame member => ?_) apart.bytes
    rw [here] at member
    exact apart.pending frame member
  finished := fun c d _ level generated apart made => by
    obtain ⟨count, probesPending, _, rfl⟩ := assemblePacket_finished made
    refine apart.withQueues probesPending (fun here frame member => ?_) (apart.datagramsTaken _ _)
    rcases mem_append.mp member with taken | rest
    · exact Frame.isDatagram_of_isRetransmittable (mem_filter.mp taken).2
    · rw [here] at rest
      exact apart.pending frame (mem_of_mem_drop rest)
  sent := fun c d _ level generated packet apart made => by
    obtain ⟨count, probesPending, next, _, _, encoded, rfl⟩ := assemblePacket_sent made
    have taken := apart.takeQueued level count probesPending
    have committed : QueuesApart next := by
      obtain ⟨_, rfl⟩ := encodePacket_sent encoded
      split
      · exact taken.trackPacket _ _ _ _
      · exact (Leaves.spendPacketNumber _ level).sameOutlet.queuesApart taken
    unfold commitPacket
    dsimp only
    split
    · exact (Leaves.commitAck _ level).sameOutlet.queuesApart (committed.of_spaces rfl rfl rfl)
    · exact committed.of_spaces rfl rfl rfl

end Connection
end SwStack.Quic
