import SwStack.Quic.Retirement

/-! Three parts of a connection that most calls leave alone: what lets datagrams out, what opens
packets and tells replays, and what bounds stream data on its way out. For each call it is said
once which of them it may touch. -/
namespace SwStack.Quic

open SwStack.Lib List

structure Outlet where
  state : State
  path : Path
  closeSent : Bool
  datagrams : List Bytes
  datagramBytes : Nat

structure SpaceProtection where
  rxKeys : Option TrafficKeys
  txKeys : Option TrafficKeys
  ranges : List LocalAckRange
  largestReceivedPn : Option Nat

structure Protection where
  keys : KeyUpdate
  handshakeConfirmed : Bool
  spaces : Level → SpaceProtection

structure SendView where
  setup : Setup
  totalStreamBytesSent : Nat
  bufferedStreamSendBytes : Nat
  peerMaxData : Nat
  peerStreamMaxData : SortedMap Nat Nat
  sendStreams : SortedMap Nat SendStream

def Space.protection (space : Space) : SpaceProtection :=
  { rxKeys := space.rxKeys, txKeys := space.txKeys, ranges := space.ackTracker.ranges
    largestReceivedPn := space.largestReceivedPn }

namespace Connection

def outlet (c : Connection) : Outlet :=
  { state := c.state, path := c.driver.path, closeSent := c.driver.closing.sent
    datagrams := c.driver.datagrams.pendingFrames
    datagramBytes := c.driver.datagrams.pendingFrameBytes }

def protection (c : Connection) : Protection :=
  { keys := c.keys, handshakeConfirmed := c.handshakeConfirmed
    spaces := fun level => (c.spaces level).protection }

def sendView (c : Connection) : SendView :=
  { setup := c.setup, totalStreamBytesSent := c.sending.totalStreamBytesSent
    bufferedStreamSendBytes := c.sending.bufferedStreamSendBytes
    peerMaxData := c.connectionFlow.peerMaxData
    peerStreamMaxData := c.receive.peerStreamMaxData, sendStreams := c.sendStreams }

/-- A packet in flight would have the frame sent again. -/
def Recorded (c : Connection) (frame : Frame) : Prop :=
  ∃ level, ∃ entry ∈ (c.spaces level).sentPackets.entries, frame ∈ entry.2.retransmittable

/-- The outlet stays, and no DATAGRAM frame enters the queue of the other frames. -/
structure SameOutlet (before after : Connection) : Prop where
  outlet : after.outlet = before.outlet
  pending : ∀ frame ∈ after.app.pendingFrames, frame.isDatagram = true →
    frame ∈ before.app.pendingFrames ∨ before.Recorded frame
  recorded : ∀ frame, after.Recorded frame → frame.isDatagram = true → before.Recorded frame

variable {c d : Connection} {level : Level}

theorem SameOutlet.refl (c : Connection) : SameOutlet c c :=
  ⟨rfl, fun _ member _ => .inl member, fun _ recorded _ => recorded⟩

theorem SameOutlet.trans {first second third : Connection} (left : SameOutlet first second)
    (right : SameOutlet second third) : SameOutlet first third := by
  refine ⟨right.outlet.trans left.outlet, fun frame member datagram => ?_,
    fun frame recorded datagram => left.recorded frame (right.recorded frame recorded datagram)
      datagram⟩
  rcases right.pending frame member datagram with old | recorded
  · exact left.pending frame old datagram
  · exact .inr (left.recorded frame recorded datagram)

theorem SameOutlet.of_spaces (outlet : d.outlet = c.outlet) (spaces : d.spaces = c.spaces) :
    SameOutlet c d := by
  refine ⟨outlet, fun frame member _ => ?_, fun frame recorded _ => ?_⟩
  · rw [app, spaces] at member
    exact .inl member
  · rw [Recorded, spaces] at recorded
    exact recorded

theorem SameOutlet.setSpace (c : Connection)
    (pending : ∀ frame ∈ space.pendingFrames, frame.isDatagram = true →
      frame ∈ (c.spaces level).pendingFrames ∨ c.Recorded frame)
    (sent : ∀ entry ∈ space.sentPackets.entries,
      entry ∈ (c.spaces level).sentPackets.entries) :
    SameOutlet c (c.setSpace level space) := by
  refine ⟨rfl, fun frame member datagram => ?_, fun frame recorded _ => ?_⟩
  · rw [app, setSpace_spaces] at member
    split at member
    · rename_i here
      rw [app, here]
      exact pending frame member datagram
    · exact .inl member
  · obtain ⟨other, entry, member, occurs⟩ := recorded
    rw [setSpace_spaces] at member
    split at member
    · exact ⟨level, entry, sent entry member, occurs⟩
    · exact ⟨other, entry, member, occurs⟩

theorem protection_setSpace (same : space.protection = (c.spaces level).protection) :
    (c.setSpace level space).protection = c.protection := by
  have spaces : (fun other => ((c.setSpace level space).spaces other).protection) =
      fun other => (c.spaces other).protection := by
    funext other
    rw [setSpace_spaces]
    split
    · rename_i here
      rw [here, same]
    · rfl
  exact congrArg (Protection.mk c.keys c.handshakeConfirmed) spaces

theorem protection_same (keys : d.keys = c.keys)
    (confirmed : d.handshakeConfirmed = c.handshakeConfirmed) (spaces : d.spaces = c.spaces) :
    d.protection = c.protection := by
  unfold protection
  rw [keys, confirmed, spaces]

inductive Part where
  | outlet
  | protection
  | sending
  deriving DecidableEq

/-- Nothing changes in a part that may not be touched. -/
structure Leaves (touched : Part → Prop) (before after : Connection) : Prop where
  outlet : ¬touched .outlet → SameOutlet before after
  protection : ¬touched .protection → after.protection = before.protection
  sending : ¬touched .sending → after.sendView = before.sendView

variable {touched : Part → Prop}

theorem Leaves.sameOutlet (left : Leaves (· ≠ .outlet) c d) : SameOutlet c d :=
  left.outlet fun other => other rfl

theorem Leaves.sameProtection (left : Leaves (· ≠ .protection) c d) :
    d.protection = c.protection :=
  left.protection fun other => other rfl

theorem Leaves.sameSending (left : Leaves (· ≠ .sending) c d) : d.sendView = c.sendView :=
  left.sending fun other => other rfl

theorem Leaves.refl (c : Connection) : Leaves touched c c :=
  ⟨fun _ => .refl c, fun _ => rfl, fun _ => rfl⟩

theorem Leaves.trans {first second third : Connection} (left : Leaves touched first second)
    (right : Leaves touched second third) : Leaves touched first third where
  outlet kept := (left.outlet kept).trans (right.outlet kept)
  protection kept := (right.protection kept).trans (left.protection kept)
  sending kept := (right.sending kept).trans (left.sending kept)

theorem Leaves.after {first second third : Connection} (right : Leaves touched second third)
    (left : Leaves touched first second) : Leaves touched first third := left.trans right

theorem Leaves.elsewhere
    (same : (d.outlet, d.keys, d.handshakeConfirmed, d.spaces, d.sendView) =
      (c.outlet, c.keys, c.handshakeConfirmed, c.spaces, c.sendView)) : Leaves touched c d := by
  simp only [Prod.mk.injEq] at same
  obtain ⟨outlet, keys, confirmed, spaces, sending⟩ := same
  exact ⟨fun _ => .of_spaces outlet spaces, fun _ => protection_same keys confirmed spaces,
    fun _ => sending⟩

theorem Leaves.sends (allowed : touched .sending)
    (same : (d.outlet, d.keys, d.handshakeConfirmed, d.spaces) =
      (c.outlet, c.keys, c.handshakeConfirmed, c.spaces)) : Leaves touched c d := by
  simp only [Prod.mk.injEq] at same
  obtain ⟨outlet, keys, confirmed, spaces⟩ := same
  exact ⟨fun _ => .of_spaces outlet spaces, fun _ => protection_same keys confirmed spaces,
    fun kept => absurd allowed kept⟩

theorem Leaves.opens (allowed : touched .outlet) (protection : d.protection = c.protection)
    (sending : d.sendView = c.sendView) : Leaves touched c d :=
  ⟨fun kept => absurd allowed kept, fun _ => protection, fun _ => sending⟩

theorem Leaves.locks (allowed : touched .protection) (outlet : SameOutlet c d)
    (sending : d.sendView = c.sendView) : Leaves touched c d :=
  ⟨fun _ => outlet, fun kept => absurd allowed kept, fun _ => sending⟩

theorem Leaves.setSpace (c : Connection)
    (pending : ¬touched .outlet → ∀ frame ∈ space.pendingFrames, frame.isDatagram = true →
      frame ∈ (c.spaces level).pendingFrames ∨ c.Recorded frame)
    (sent : ∀ entry ∈ space.sentPackets.entries, entry ∈ (c.spaces level).sentPackets.entries)
    (protection : space.protection = (c.spaces level).protection) :
    Leaves touched c (c.setSpace level space) :=
  ⟨fun kept => .setSpace c (pending kept) sent, fun _ => protection_setSpace protection,
    fun _ => rfl⟩

theorem Leaves.retune (c : Connection)
    (same : (space.pendingFrames, space.sentPackets, space.protection) =
      ((c.spaces level).pendingFrames, (c.spaces level).sentPackets,
        (c.spaces level).protection)) : Leaves touched c (c.setSpace level space) := by
  simp only [Prod.mk.injEq] at same
  obtain ⟨pending, sent, protection⟩ := same
  exact .setSpace c (fun _ _ member _ => .inl (pending ▸ member)) (fun _ member => sent ▸ member)
    protection

theorem Leaves.enqueueAll (c : Connection) (level : Level)
    (known : ¬touched .outlet → ∀ frame ∈ frames, frame.isDatagram = true → c.Recorded frame) :
    Leaves touched c (c.enqueueAll level frames) := by
  refine .setSpace c (fun kept frame member datagram => ?_) (fun _ member => member) rfl
  rcases mem_append.mp member with old | new
  · exact .inl old
  · exact .inr (known kept frame new datagram)

theorem Leaves.enqueue (c : Connection) (level : Level)
    (other : ¬touched .outlet → frame.isDatagram = false) :
    Leaves touched c (c.enqueue level frame) := by
  refine .enqueueAll c level fun kept queued member datagram => ?_
  rw [mem_singleton.mp member, other kept] at datagram
  cases datagram

theorem Leaves.filterPending (c : Connection) (keep : Frame → Bool) :
    Leaves touched c (c.filterPending keep) :=
  .setSpace c (fun _ _ member _ => .inl (mem_of_mem_filter member)) (fun _ member => member) rfl

theorem Leaves.forgetPacket (c : Connection) (level : Level) (packetNumber : Nat) :
    Leaves touched c (c.forgetPacket level packetNumber) :=
  .setSpace c (fun _ _ member _ => .inl member)
    (fun _ member => (SortedMap.mem_entries_erase.mp member).1) rfl

theorem Leaves.clearSpace (keyed : touched .protection) (c : Connection) (level : Level) :
    Leaves touched c (c.clearSpace level) :=
  .locks keyed (.setSpace c (fun _ member _ => nomatch member) (fun _ member => nomatch member)) rfl

theorem Leaves.advertiseStream (c : Connection) (streamId : Nat) (flow : StreamFlowControl) :
    Leaves touched c (c.advertiseStream streamId flow) := by
  unfold Connection.advertiseStream
  split
  · exact .after (.enqueue _ _ fun _ => rfl) (.elsewhere rfl)
  · exact .elsewhere rfl

theorem Leaves.advertiseConnection (same : flow.peerMaxData = c.connectionFlow.peerMaxData) :
    Leaves touched c (c.advertiseConnection flow) := by
  have replaced (next : ConnectionFlowControl) (equal : next.peerMaxData = flow.peerMaxData) :
      Leaves touched c { c with connectionFlow := next } := by
    refine .elsewhere ?_
    unfold sendView
    rw [equal, same]
    rfl
  unfold Connection.advertiseConnection
  split
  · exact .after (.enqueue _ _ fun _ => rfl) (replaced _ rfl)
  · exact replaced flow rfl

theorem Leaves.creditFlowControl (c : Connection) (streamId bytes : Nat) :
    Leaves touched c (c.creditFlowControl streamId bytes) := by
  refine .after (.advertiseConnection ?_) (.advertiseStream c streamId _)
  unfold Connection.advertiseStream
  split <;> rfl

theorem Leaves.creditDiscarded (c : Connection) (streamId finalSize : Nat) :
    Leaves touched c (c.creditDiscarded streamId finalSize) := by
  unfold Connection.creditDiscarded
  split
  · exact .creditFlowControl c _ _
  · exact .refl c

theorem Leaves.retireStream (sends : touched .sending) (c : Connection) (streamId : Nat) :
    Leaves touched c (c.retireStream streamId) := by
  have marked : Leaves touched c (c.markRetiredPeerBidirectional streamId) := .elsewhere rfl
  have removed : Leaves touched c
      ((c.markRetiredPeerBidirectional streamId).removePendingSendFramesForStream streamId true) :=
    .after (.filterPending _ _) marked
  have granted (c : Connection) : Leaves touched c c.grantPeerStream := by
    unfold grantPeerStream
    split
    · exact .after (.enqueue _ _ fun _ => rfl) (.elsewhere rfl)
    · exact .refl c
  exact .after (granted _) (removed.trans (.sends sends rfl))

theorem Leaves.retireAcknowledgedPeerStreams (sends : touched .sending) (c : Connection) :
    Leaves touched c c.retireAcknowledgedPeerStreams := by
  have all (entries : List (Nat × SendStream)) (c : Connection) :
      Leaves touched c (c.retireAll entries) := by
    unfold retireAll
    induction entries generalizing c with
    | nil => exact .refl c
    | cons entry rest ih =>
      rw [foldl_cons]
      refine Leaves.trans ?_ (ih _)
      split
      · exact .retireStream sends c _
      · exact .refl c
  exact (all _ c).trans (.elsewhere rfl)

theorem Leaves.validateSendStreamState (c : Connection) (streamId : Nat) :
    Leaves touched c (c.validateSendStreamState streamId).1 := by
  unfold Connection.validateSendStreamState
  repeat' split
  all_goals exact .elsewhere rfl

theorem Leaves.sendStreamData (sends : touched .sending) (c : Connection) (streamId : Nat)
    (data : Bytes) (fin : Bool) : Leaves touched c (c.sendStreamData streamId data fin).1 := by
  have validated : Leaves touched c _ := .validateSendStreamState c streamId
  unfold Connection.sendStreamData
  split
  · exact .refl c
  · rcases found : c.validateSendStreamState streamId with ⟨next, _ | message⟩
    · rw [found] at validated
      dsimp only
      split
      · exact validated
      split
      · exact validated
      · exact validated.trans (.sends sends rfl)
    · rw [found] at validated
      exact validated

theorem Leaves.resetStream (sends : touched .sending) (c : Connection) (streamId errorCode : Nat) :
    Leaves touched c (c.resetStream streamId errorCode).1 := by
  have validated : Leaves touched c _ := .validateSendStreamState c streamId
  unfold Connection.resetStream
  split
  · exact .refl c
  · rcases found : c.validateSendStreamState streamId with ⟨next, _ | message⟩
    · rw [found] at validated
      dsimp only
      split
      · exact validated
      · exact .after (.enqueue _ _ fun _ => rfl) (.after (.filterPending _ _)
          (validated.trans (.sends sends rfl)))
    · rw [found] at validated
      exact validated

theorem Leaves.resetStreamAt (sends : touched .sending) (c : Connection)
    (streamId errorCode reliableSize : Nat) :
    Leaves touched c (c.resetStreamAt streamId errorCode reliableSize).1 := by
  have validated : Leaves touched c _ := .validateSendStreamState c streamId
  unfold Connection.resetStreamAt
  split
  · exact .refl c
  split
  · exact .refl c
  · rcases found : c.validateSendStreamState streamId with ⟨next, _ | message⟩
    · rw [found] at validated
      dsimp only
      split
      · split <;> exact validated
      split
      · exact validated.trans (.sends sends rfl)
      · exact .after (.enqueue _ _ fun _ => rfl) (.after (.filterPending _ _)
          (validated.trans (.sends sends rfl)))
    · rw [found] at validated
      exact validated

theorem Leaves.stopReceivingStream (c : Connection) (streamId errorCode : Nat) :
    Leaves touched c (c.stopReceivingStream streamId errorCode).1 := by
  unfold Connection.stopReceivingStream
  repeat' split
  all_goals first | exact .refl c | exact .enqueue c _ fun _ => rfl

theorem Leaves.queueDatagramFrame (lets : touched .outlet) (c : Connection) (data : Bytes) :
    Leaves touched c (c.queueDatagramFrame data).1 := by
  unfold Connection.queueDatagramFrame
  dsimp only
  repeat' split
  all_goals exact .opens lets rfl rfl

theorem Leaves.queueFrame (lets : touched .outlet) (c : Connection) (level : Level)
    (frame : Frame) : Leaves touched c (c.queueFrame level frame) := by
  unfold Connection.queueFrame
  split
  · exact .queueDatagramFrame lets c _
  · exact .enqueue c _ fun kept => absurd lets kept

theorem Leaves.consumeStream (c : Connection) (streamId : Nat) :
    Leaves touched c (c.consumeStream streamId).1 := by
  have read : Leaves touched c (c.readContiguous streamId).1 := by
    unfold readContiguous
    split <;> exact .elsewhere rfl
  have credited (c : Connection) (bytes : Nat) : Leaves touched c (c.creditRead streamId bytes) := by
    unfold creditRead
    split
    · exact .refl c
    · exact .creditFlowControl c _ _
  have applied (c : Connection) : Leaves touched c (c.applyReliableReset streamId) := by
    unfold applyReliableReset
    split
    · split
      · exact .after (.creditDiscarded _ _ _) (.elsewhere rfl)
      · exact .refl c
    · exact .refl c
  exact (read.trans (credited _ _)).trans (applied _)

theorem Leaves.releasePeerBidirectionalStream (sends : touched .sending) (c : Connection)
    (streamId : Nat) : Leaves touched c (c.releasePeerBidirectionalStream streamId).1 := by
  unfold Connection.releasePeerBidirectionalStream
  repeat' split
  all_goals first
    | exact .refl c
    | exact .after (.retireAcknowledgedPeerStreams sends _) (.sends sends rfl)

theorem Leaves.andThen {result : Connection × Option String}
    {next : Connection → Connection × Option String} (left : Leaves touched c result.1)
    (right : ∀ c, Leaves touched c (next c).1) : Leaves touched c (andThen result next).1 := by
  obtain ⟨d, _ | message⟩ := result
  · exact left.trans (right d)
  · exact left

theorem Leaves.enforceStreamLimit (c : Connection) (streamId : Nat) :
    Leaves touched c (c.enforceStreamLimit streamId).1 := by
  unfold Connection.enforceStreamLimit
  repeat' split
  all_goals exact .elsewhere rfl

theorem Leaves.accountBytes (c : Connection) (streamId offset length : Nat) :
    Leaves touched c (c.accountBytes streamId offset length).1 := by
  have stream : Leaves touched c (c.accountStream streamId offset length).1 := by
    unfold accountStream
    split <;> exact .elsewhere rfl
  have connection (c : Connection) (length : Nat) :
      Leaves touched c (c.accountConnection length).1 := by
    unfold accountConnection ConnectionFlowControl.onDataReceived
    repeat' split
    all_goals first | exact .refl c | skip
    rename_i accepted
    split at accepted
    · cases accepted
    split at accepted
    · cases accepted
    · cases accepted
      exact .elsewhere rfl
  refine .andThen stream fun d => ?_
  split
  · exact connection d _
  · exact .refl d

theorem Leaves.accountFinalSize (c : Connection) (streamId finalSize : Nat) :
    Leaves touched c (c.accountFinalSize streamId finalSize).1 := by
  unfold Connection.accountFinalSize
  split
  · exact .accountBytes c _ _ _
  · exact .refl c

theorem Leaves.receiveReset (c : Connection) (streamId errorCode finalSize : Nat) :
    Leaves touched c (c.receiveReset streamId errorCode finalSize).1 := by
  refine .andThen (.enforceStreamLimit c streamId) fun d => ?_
  split
  · exact .elsewhere rfl
  · exact .andThen (.after (.accountFinalSize _ _ _) (.elsewhere rfl))
      fun d => .creditDiscarded d _ _

theorem Leaves.receiveResetAt (c : Connection) (streamId errorCode finalSize reliableSize : Nat) :
    Leaves touched c (c.receiveResetAt streamId errorCode finalSize reliableSize).1 := by
  refine .andThen (.enforceStreamLimit c streamId) fun d => ?_
  split
  · exact .elsewhere rfl
  · refine .andThen (.after (.accountFinalSize _ _ _) (.elsewhere rfl)) fun d => ?_
    unfold scheduleReset
    split
    · exact .after (.creditDiscarded _ _ _) (.elsewhere rfl)
    · exact .elsewhere rfl

theorem Leaves.processResetStreamFrame (sends : touched .sending) (c : Connection)
    (streamId errorCode finalSize : Nat) :
    Leaves touched c (c.processResetStreamFrame streamId errorCode finalSize).1 := by
  unfold Connection.processResetStreamFrame
  split
  · exact .refl c
  · exact .andThen (.receiveReset c _ _ _) fun d => .retireAcknowledgedPeerStreams sends d

theorem Leaves.processResetStreamAtFrame (sends : touched .sending) (c : Connection)
    (streamId errorCode finalSize reliableSize : Nat) :
    Leaves touched c
      (c.processResetStreamAtFrame streamId errorCode finalSize reliableSize).1 := by
  unfold Connection.processResetStreamAtFrame
  split
  · exact .refl c
  split
  · exact .refl c
  split
  · exact .refl c
  · exact .andThen (.receiveResetAt c _ _ _ _) fun d => .retireAcknowledgedPeerStreams sends d

theorem Leaves.processStreamFrame (c : Connection) (streamId offset : Nat) (data : Bytes)
    (fin : Bool) : Leaves touched c (c.processStreamFrame streamId offset data fin).1 := by
  have established (c : Connection) (stop : Nat) :
      Leaves touched c (c.establishFinalSize streamId stop fin) := by
    unfold establishFinalSize
    split <;> exact .elsewhere rfl
  unfold Connection.processStreamFrame
  split
  · exact .refl c
  refine .andThen (.enforceStreamLimit c streamId) fun d => ?_
  split
  · exact .refl d
  · refine .andThen ((established d _).trans (.accountBytes _ _ _ _)) fun d => ?_
    unfold reassemble
    split <;> exact .elsewhere rfl

theorem Leaves.processStopSending (sends : touched .sending) (c : Connection)
    (streamId errorCode : Nat) : Leaves touched c (c.processStopSending streamId errorCode).1 := by
  unfold Connection.processStopSending
  split
  · exact .refl c
  split
  · exact .refl c
  · exact .resetStream sends c streamId errorCode

theorem Leaves.processMaxStreamData (sends : touched .sending) (c : Connection)
    (streamId maximum : Nat) : Leaves touched c (c.processMaxStreamData streamId maximum).1 := by
  unfold Connection.processMaxStreamData
  repeat' split
  all_goals exact .sends sends rfl

theorem Leaves.processNewConnectionId (c : Connection) (sequenceNumber retirePriorTo : Nat)
    (connectionId token : Bytes) : Leaves touched c
      (c.processNewConnectionId sequenceNumber retirePriorTo connectionId token).1 := by
  have retired : Leaves touched c (c.retirePeerConnectionIds retirePriorTo) := by
    refine .after (.enqueueAll _ .application ?_) (.elsewhere rfl)
    intro _ frame member datagram
    obtain ⟨sequenceNumber, _, same⟩ := mem_map.mp member
    rw [← same] at datagram
    cases datagram
  have adopted (d : Connection) : Leaves touched d
      (d.adoptPeerConnectionIdIfRetired sequenceNumber retirePriorTo connectionId) := by
    unfold adoptPeerConnectionIdIfRetired
    split <;> exact .elsewhere rfl
  unfold Connection.processNewConnectionId
  split
  · exact .refl c
  dsimp only
  split
  · split
    · exact retired
    split
    · exact retired
    · exact .after (adopted _) (retired.trans (.elsewhere rfl))
  · split
    · exact retired
    · exact .after (adopted _) (retired.trans (.elsewhere rfl))

theorem Leaves.processDatagram (c : Connection) (data : Bytes) :
    Leaves touched c (c.processDatagram data).1 := by
  unfold Connection.processDatagram
  dsimp only
  repeat' split
  all_goals exact .elsewhere rfl

theorem Leaves.takeDatagram (c : Connection) : Leaves touched c c.takeDatagram.1 := by
  unfold Connection.takeDatagram
  split <;> exact .elsewhere rfl

theorem Leaves.resetForNewPath (c : Connection) : Leaves touched c c.resetForNewPath := by
  have tuned : Leaves touched c (c.setSpace .application { c.app with loss := .empty }) :=
    .retune c rfl
  exact tuned.trans (.elsewhere rfl)

theorem Leaves.processPathResponse (lets : touched .outlet) (c : Connection) (data : Bytes) :
    Leaves touched c (c.processPathResponse data) := by
  unfold Connection.processPathResponse
  split
  · split
    · exact (Leaves.resetForNewPath c).trans (.opens lets rfl rfl)
    · exact .opens lets rfl rfl
  · exact .refl c

theorem Leaves.acknowledgeAll (sends : touched .sending) (level : Level) (numbers : List Nat)
    (c : Connection) : Leaves touched c (numbers.foldl (acknowledgePacket level) c) := by
  have acknowledged (c : Connection) (packetNumber : Nat) :
      Leaves touched c (acknowledgePacket level c packetNumber) := by
    unfold acknowledgePacket
    split
    · exact .refl c
    · exact (Leaves.forgetPacket c level packetNumber).trans (.sends sends rfl)
  induction numbers generalizing c with
  | nil => exact .refl c
  | cons number rest ih => exact (acknowledged c number).trans (ih _)

theorem Leaves.loseAll (level : Level) (nowMs : Nat) (numbers : List Nat)
    (state : Connection × LostSpan) :
    Leaves touched state.1 (numbers.foldl (losePacket level nowMs) state).1 := by
  have lost (state : Connection × LostSpan) (packetNumber : Nat) :
      Leaves touched state.1 (losePacket level nowMs state packetNumber).1 := by
    unfold losePacket
    split
    · exact .refl _
    · rename_i record found
      have requeued : Leaves touched state.1 (state.1.enqueueAll level
          (record.retransmittable.filter state.1.shouldRetransmitFrame)) := by
        refine .enqueueAll state.1 level fun _ frame member _ => ?_
        exact ⟨level, (packetNumber, record), SortedMap.find?_eq_some_iff.mp found,
          mem_of_mem_filter member⟩
      exact (requeued.trans (.forgetPacket _ level packetNumber)).trans (.elsewhere rfl)
  induction numbers generalizing state with
  | nil => exact .refl _
  | cons number rest ih => exact (lost state number).trans (ih _)

theorem Leaves.detectPersistentCongestion (level : Level) (clock : Clock)
    (state : Connection × LostSpan) :
    Leaves touched state.1 (detectPersistentCongestion level clock state) := by
  unfold Connection.detectPersistentCongestion
  split <;> exact .elsewhere rfl

theorem Leaves.settleAck (sends : touched .sending) (keyed : touched .protection) (c : Connection)
    (level : Level) (clock : Clock) (loss : LossRecovery) (result : AckResult) :
    Leaves touched c (c.settleAck level clock loss result) := by
  have tuned : SameOutlet c
      (c.setSpace level { c.spaces level with loss := loss, probesPending := 0 }) :=
    .setSpace c (fun _ member _ => .inl member) (fun _ member => member)
  have started : Leaves touched c (c.startAck level loss result) :=
    .locks keyed (tuned.trans (.of_spaces rfl rfl)) rfl
  exact .after (.detectPersistentCongestion _ _ _) (.after (.loseAll _ _ _ (_, ⟨0, 0, 0⟩))
    (started.trans (.acknowledgeAll sends _ _ _)))

theorem Leaves.refreshInFlightFlag (c : Connection) (level : Level) :
    Leaves touched c (c.refreshInFlightFlag level) := .retune c rfl

theorem Leaves.processAckFrame (sends : touched .sending) (keyed : touched .protection)
    (c : Connection) (level : Level) (clock : Clock) (largest firstAckRange : Nat)
    (wireRanges : List AckRange) :
    Leaves touched c (c.processAckFrame level clock largest firstAckRange wireRanges).1 := by
  unfold Connection.processAckFrame
  split
  · exact .refl c
  split
  · exact .refl c
  · exact .after (.refreshInFlightFlag _ _) (.after (.retireAcknowledgedPeerStreams sends _)
      (.settleAck sends keyed c _ _ _ _))

theorem Leaves.advanceKeyPhase (keyed : touched .protection) (c : Connection) :
    Leaves touched c c.advanceKeyPhase.1 := by
  unfold Connection.advanceKeyPhase
  split
  · exact .refl c
  split
  · have tuned (rxKeys txKeys : TrafficKeys) : SameOutlet c (c.setSpace .application
        { c.app with rxKeys := some rxKeys, txKeys := some txKeys }) :=
      .setSpace c (fun _ member _ => .inl member) (fun _ member => member)
    exact .locks keyed ((tuned _ _).trans (.of_spaces rfl rfl)) rfl
  · exact .refl c

theorem Leaves.admitPacket (keyed : touched .protection) (c : Connection) (mode : ReceiveMode)
    (nowMs : Nat) (packet : Packet) :
    Leaves touched c (c.admitPacket mode nowMs packet).connection := by
  have decoded (c : Connection) :
      Leaves touched c (c.admitDecoded mode nowMs packet).connection := by
    unfold admitDecoded
    split
    · exact .refl c
    · exact .locks keyed (.setSpace c (fun _ member _ => .inl member) (fun _ member => member)) rfl
  unfold Connection.admitPacket
  split
  · unfold admitShortHeader
    split
    · exact .refl c
    split
    · exact .refl c
    split
    · exact .refl c
    · rename_i opened _ _
      have moved : Leaves touched c
          (if opened = .next then c.advanceKeyPhase else (c, none)).1 := by
        split
        · exact .advanceKeyPhase keyed c
        · exact .refl c
      split
      · rename_i next message stepped
        rw [stepped] at moved
        exact moved
      · rename_i next stepped
        rw [stepped] at moved
        exact moved.trans (decoded next)
  · unfold admitLongHeader
    repeat' split
    all_goals first | exact .refl c | exact decoded c

theorem Leaves.setLevelKeys (keyed : touched .protection) (c : Connection) (level : Level)
    (rxKeys txKeys : TrafficKeys) : Leaves touched c (c.setLevelKeys level rxKeys txKeys) := by
  have installed : SameOutlet c (c.installKeys level rxKeys txKeys) :=
    .setSpace c (fun _ member _ => .inl member) (fun _ member => member)
  unfold Connection.setLevelKeys
  split
  · exact .locks keyed (installed.trans (.of_spaces rfl rfl)) rfl
  · exact .locks keyed installed rfl

theorem Leaves.dropLevelKeys (lets : touched .outlet) (keyed : touched .protection)
    (c : Connection) (level : Level) : Leaves touched c (c.dropLevelKeys level) := by
  refine ⟨fun kept => absurd lets kept, fun kept => absurd keyed kept, fun _ => ?_⟩
  unfold Connection.dropLevelKeys
  split <;> rfl

theorem Leaves.initiateKeyUpdate (keyed : touched .protection) (c : Connection) :
    Leaves touched c c.initiateKeyUpdate.1 := by
  unfold Connection.initiateKeyUpdate
  repeat' split
  all_goals first
    | exact .refl c
    | exact .advanceKeyPhase keyed c

theorem Leaves.firePto (clock : Clock) (c : Connection) (level : Level) :
    Leaves touched c (firePto clock c level) := by
  have probes (records : List SentRecord)
      (known : ∀ record ∈ records, ∀ frame ∈ record.retransmittable, c.Recorded frame) :
      ∀ frame ∈ c.probeFrames records, frame.isDatagram = true → c.Recorded frame := by
    induction records with
    | nil =>
      intro frame member datagram
      rw [mem_singleton.mp member] at datagram
      cases datagram
    | cons record rest ih =>
      rw [probeFrames]
      split
      · exact ih fun record member => known record (mem_cons_of_mem _ member)
      · exact fun frame member _ => known record mem_cons_self frame
          (mem_of_mem_filter member)
  unfold Connection.firePto
  split
  · exact .refl c
  split
  · have armed (d : Connection) : Leaves touched d (d.armProbe level) := by
      have tuned (count : Nat) : Leaves touched d
          (d.setSpace level { d.spaces level with probesPending := count }) := .retune d rfl
      exact (tuned _).trans (.elsewhere rfl)
    refine .after (armed _) (.enqueueAll c level fun _ => ?_)
    refine probes _ fun record member frame occurs => ?_
    obtain ⟨entry, inside, same⟩ := mem_map.mp member
    exact ⟨level, entry, inside, same ▸ occurs⟩
  · exact .refl c

theorem Leaves.onTimeout (lets : touched .outlet) (c : Connection) (clock : Clock) :
    Leaves touched c (c.onTimeout clock) := by
  unfold Connection.onTimeout
  split
  · exact .opens lets rfl rfl
  split
  · exact .opens lets rfl rfl
  · exact .after (.firePto _ _ _) (.after (.firePto _ _ _) (.firePto _ _ _))

theorem Leaves.onPeerAddressChanged (lets : touched .outlet) (c : Connection)
    (receivedBytes : Nat) (challenge : Bytes) :
    Leaves touched c (c.onPeerAddressChanged receivedBytes challenge) := by
  unfold Connection.onPeerAddressChanged
  split
  · exact .refl c
  · exact .after (.enqueue _ _ fun _ => rfl) (.opens lets rfl rfl)

theorem Leaves.issueNewConnectionId (c : Connection) (connectionId token : Bytes) :
    Leaves touched c (c.issueNewConnectionId connectionId token) :=
  .after (.enqueue _ _ fun _ => rfl) (.elsewhere rfl)

theorem Leaves.setMaximumUdpPayloadSize (c : Connection) (maximum : Nat) :
    Leaves touched c (c.setMaximumUdpPayloadSize maximum) := by
  unfold Connection.setMaximumUdpPayloadSize
  dsimp only
  repeat' split
  all_goals exact .elsewhere rfl

theorem Leaves.close (lets : touched .outlet) (c : Connection) (errorCode : Nat) (reason : Bytes)
    (isApplication : Bool) : Leaves touched c (c.close errorCode reason isApplication) := by
  unfold Connection.close
  split <;> exact .opens lets rfl rfl

theorem Leaves.stageOneStreamFrame (sends : touched .sending) (c : Connection) (streamId : Nat) :
    Leaves touched c (c.stageOneStreamFrame streamId).1 := by
  unfold Connection.stageOneStreamFrame
  repeat' split
  all_goals first | exact .refl c | skip
  · rename_i stream _ _ _
    have staged (chunkSize : Nat) : Leaves touched c (c.stageChunk streamId stream chunkSize) := by
      have queued : Leaves touched c ((c.setSendStream streamId (stream.stageChunk chunkSize))
          |>.enqueue .application (stream.chunkFrame streamId chunkSize)) :=
        .after (.enqueue _ _ fun _ => rfl) (.sends sends rfl)
      exact queued.trans (.sends sends rfl)
    exact staged _
  · exact .after (.enqueue _ _ fun _ => rfl) (.sends sends rfl)

theorem Leaves.stageLevel (sends : touched .sending) (c : Connection) (level : Level) :
    Leaves touched c (c.stageLevel level) := by
  have looped (streamIds : List Nat) (budget fuel : Nat) (c : Connection)
      (cursor staged withoutProgress : Nat) : Leaves touched c
        (stageLoop streamIds budget fuel c cursor staged withoutProgress).1 := by
    induction fuel generalizing c cursor staged withoutProgress with
    | zero => exact .refl c
    | succ fuel ih =>
      rw [stageLoop]
      split
      · dsimp only
        split <;> exact (Leaves.stageOneStreamFrame sends c _).trans (ih _ _ _ _)
      · exact .refl c
  unfold Connection.stageLevel stageStreamFrames
  dsimp only
  split
  · split
    · exact .refl c
    split
    · exact .refl c
    · exact (looped _ _ _ c _ _ _).trans (.elsewhere rfl)
  · exact .refl c

theorem Leaves.spendPacketNumber (c : Connection) (level : Level) :
    Leaves touched c (c.spendPacketNumber level) := .retune c rfl

theorem Leaves.commitAck (c : Connection) (level : Level) :
    Leaves touched c (c.commitAck level) := .retune c rfl

theorem Leaves.encodePacket
    (sent : c.encodePacket level frames ackEliciting nowMs seals maxWireBytes trackGlobalLoss =
      .sent d packet) (lets : touched .outlet ∨ (ackEliciting && trackGlobalLoss) = false) :
    Leaves touched c d := by
  unfold Connection.encodePacket sealPacket at sent
  repeat' split at sent
  all_goals first | contradiction | skip
  · rename_i tracked
    cases sent
    refine .opens (lets.resolve_right (by simp [tracked])) ?_ rfl
    change (c.setSpace level _).protection = c.protection
    exact protection_setSpace (by rfl)
  · cases sent
    exact .spendPacketNumber c level

theorem Leaves.assemblePacket (lets : touched .outlet) (c : Connection) (level : Level)
    (nowMs : Nat) (seals : Nat → Nat → Bool) (generated : Option Frame) :
    Leaves touched c (c.assemblePacket level nowMs seals generated).connection := by
  have opened {c d : Connection} (protection : d.protection = c.protection)
      (sending : d.sendView = c.sendView) : Leaves touched c d := .opens lets protection sending
  have taken (count probesPending : Nat) :
      Leaves touched c (c.takeQueued level count probesPending) := by
    have dropped : Leaves touched c (c.setSpace level { c.spaces level with
        pendingFrames := (c.spaces level).pendingFrames.drop count, probesPending }) :=
      opened (protection_setSpace rfl) rfl
    unfold takeQueued takeDatagrams
    split
    · exact dropped.trans (opened rfl rfl)
    · exact dropped
  have restored (frames : List Frame) (c : Connection) :
      Leaves touched c (frames.foldr (restorePendingFrame level) c) := by
    induction frames with
    | nil => exact .refl c
    | cons frame rest ih =>
      rw [foldr_cons]
      unfold restorePendingFrame
      split
      · exact ih.trans (opened rfl rfl)
      · exact ih.trans (opened (protection_setSpace rfl) rfl)
  have committed (c : Connection) (size : Nat) :
      Leaves touched c (c.commitPacket level generated size) := by
    unfold commitPacket
    dsimp only
    split
    · exact .after (.commitAck _ _) (opened rfl rfl)
    · exact opened rfl rfl
  unfold Connection.assemblePacket
  split
  · exact .refl c
  split
  · exact .refl c
  · unfold sendPacking
    split
    · exact (taken _ _).trans (restored _ _)
    · exact (taken _ _).trans (opened (protection_setSpace rfl) rfl)
    · rename_i sent
      exact ((taken _ _).trans (.encodePacket sent (.inl lets))).trans (committed _ _)

theorem Leaves.buildCloseDatagram (lets : touched .outlet) (c : Connection) (clock : Clock)
    (seals : Nat → Nat → Bool) : Leaves touched c (c.buildCloseDatagram clock seals).1 := by
  unfold Connection.buildCloseDatagram
  split
  · exact .refl c
  dsimp only
  split
  · exact .refl c
  · split
    · exact .refl c
    · exact .opens lets rfl rfl
    · rename_i sent
      exact (Leaves.encodePacket sent (.inl lets)).trans (.opens lets rfl rfl)

theorem Leaves.buildLevels (lets : touched .outlet) (sends : touched .sending) (nowMs : Nat)
    (seals : Nat → Nat → Bool) (levels : List Level) (c : Connection) (packets : List Packet) :
    Leaves touched c (buildLevels nowMs seals levels c packets).1 := by
  have looped (level : Level) (fuel : Nat) (c : Connection) (ackWanted : Bool)
      (packets : List Packet) : Leaves touched c
        (assembleLoop level nowMs seals fuel c ackWanted packets).1 := by
    induction fuel generalizing c ackWanted packets with
    | zero => exact .refl c
    | succ fuel ih =>
      rw [assembleLoop]
      split
      · split
        · exact .refl c
        · rename_i generated _
          have assembled : Leaves touched c _ := .assemblePacket lets c level nowMs seals generated
          split
          · rename_i made
            rw [made] at assembled
            exact assembled
          · rename_i made
            rw [made] at assembled
            exact assembled
          · rename_i made
            rw [made] at assembled
            split
            · exact assembled
            · exact assembled.trans (ih _ _ _)
      · exact .refl c
  have built (c : Connection) (level : Level) (packets : List Packet) :
      Leaves touched c (c.buildDatagramsForLevel level nowMs seals packets).1 := by
    unfold buildDatagramsForLevel
    split
    · exact .refl c
    · exact (Leaves.stageLevel sends c level).trans (looped _ _ _ _ _)
  induction levels generalizing c packets with
  | nil => exact .refl c
  | cons level rest ih =>
    have first := built c level packets
    rw [Connection.buildLevels]
    split
    · exact .refl c
    · cases built : c.buildDatagramsForLevel level nowMs seals packets with
      | mk next outcome =>
        rw [built] at first
        obtain ⟨more, _ | message⟩ := outcome
        · exact first.trans (ih _ _)
        · exact first

theorem Leaves.buildDatagrams (lets : touched .outlet) (sends : touched .sending) (c : Connection)
    (clock : Clock) (seals : Nat → Nat → Bool) :
    Leaves touched c (c.buildDatagrams clock seals).1 := by
  have paced (pacing : Pacing) : Leaves touched c { c with driver.pacing := pacing } :=
    .elsewhere rfl
  unfold Connection.buildDatagrams
  dsimp only
  split
  · exact paced _
  · exact paced _
  · exact (paced _).trans (.buildCloseDatagram lets _ _ _)
  · exact (paced _).trans (.buildLevels lets sends _ _ _ _ _)

theorem Leaves.buildPathControlDatagram (c : Connection) (response : Bool) (controlData : Bytes)
    (nowMs maxWireBytes : Nat) (seals : Nat → Nat → Bool) : Leaves touched c
      (c.buildPathControlDatagram response controlData nowMs maxWireBytes seals).1 := by
  unfold Connection.buildPathControlDatagram
  split
  · exact .refl c
  dsimp only
  split
  · exact .refl c
  · exact .refl c
  · rename_i sent
    exact .encodePacket sent (.inr rfl)

/-- What a frame may touch. -/
def touchedByFrame : Frame → List Part
  | .connectionClose .. | .pathResponse .. => [.outlet]
  | .ack .. => [.protection, .sending]
  | .handshakeDone => [.protection]
  | .maxData _ | .maxStreamData .. | .resetStream .. | .resetStreamAt .. | .stopSending .. =>
    [.sending]
  | _ => []

theorem Leaves.processFrame (c : Connection) (level : Level) (mode : ReceiveMode) (clock : Clock)
    (allowed : ∀ part ∈ touchedByFrame frame, touched part) :
    Leaves touched c (c.processFrame level mode clock frame).1 := by
  unfold Connection.processFrame
  cases frame with
  | padding => exact .refl c
  | ping => exact .refl c
  | crypto => exact .refl c
  | newToken => exact .refl c
  | dataBlocked => exact .refl c
  | streamDataBlocked => exact .refl c
  | streamsBlocked => exact .refl c
  | ack => exact .processAckFrame (allowed _ (.tail _ (.head _))) (allowed _ (.head _)) c _ _ _ _ _
  | stream => exact .processStreamFrame c _ _ _ _
  | connectionClose => exact .opens (allowed _ (.head _)) rfl rfl
  | datagram => exact .processDatagram c _
  | pathChallenge =>
    dsimp only
    split
    · exact .enqueue c _ fun _ => rfl
    · exact .refl c
  | pathResponse =>
    dsimp only
    split
    · exact .processPathResponse (allowed _ (.head _)) c _
    · exact .refl c
  | maxData => exact .sends (allowed _ (.head _)) rfl
  | maxStreamData => exact .processMaxStreamData (allowed _ (.head _)) c _ _
  | maxStreams =>
    dsimp only
    split <;> exact .elsewhere rfl
  | resetStream => exact .processResetStreamFrame (allowed _ (.head _)) c _ _ _
  | resetStreamAt => exact .processResetStreamAtFrame (allowed _ (.head _)) c _ _ _ _
  | stopSending => exact .processStopSending (allowed _ (.head _)) c _ _
  | newConnectionId => exact .processNewConnectionId c _ _ _ _
  | retireConnectionId =>
    dsimp only
    split
    · exact .refl c
    · exact .elsewhere rfl
  | handshakeDone =>
    have keyed : touched .protection := allowed _ (.head _)
    dsimp only
    split
    · have confirmed : Leaves touched c (c.setHandshakeConfirmed true) :=
        .locks keyed (.of_spaces rfl rfl) rfl
      exact confirmed.trans (.clearSpace keyed _ .handshake)
    · exact .refl c

/-- What a call may touch. -/
def touchedBy : Input → List Part
  | .queueDatagramFrame _ | .queueFrame .. | .close .. | .onTimeout _ | .commitPathMigration
  | .beginPathValidation _ | .cancelPathValidation | .onPeerAddressChanged .. | .creditDatagram ..
  | .statelessReset _ => [.outlet]
  | .buildDatagrams .. => [.outlet, .sending]
  | .dropLevelKeys _ => [.outlet, .protection]
  | .setLevelKeys .. | .setHandshakeConfirmed _ | .initiateKeyUpdate | .admitPacket .. =>
    [.protection]
  | .sendStreamData .. | .resetStream .. | .resetStreamAt .. | .readStream _
  | .releasePeerBidirectionalStream _ => [.sending]
  | .processFrame _ _ _ frame => touchedByFrame frame
  | _ => []

theorem Leaves.perform (c : Connection)
    (allowed : ∀ part ∈ touchedBy input, touched part) : Leaves touched c (c.perform input) := by
  cases input with
  | sendStreamData => exact .sendStreamData (allowed _ (.head _)) c _ _ _
  | resetStream => exact .resetStream (allowed _ (.head _)) c _ _
  | resetStreamAt => exact .resetStreamAt (allowed _ (.head _)) c _ _ _
  | stopReceivingStream => exact .stopReceivingStream c _ _
  | readStream =>
    exact .after (.retireAcknowledgedPeerStreams (allowed _ (.head _)) _) (.consumeStream c _)
  | releasePeerBidirectionalStream =>
    exact .releasePeerBidirectionalStream (allowed _ (.head _)) c _
  | queueDatagramFrame => exact .queueDatagramFrame (allowed _ (.head _)) c _
  | queueFrame => exact .queueFrame (allowed _ (.head _)) c _ _
  | takeDatagram => exact .takeDatagram c
  | registerLocalStream => exact .elsewhere rfl
  | injectEarlyStream => exact .processStreamFrame c _ _ _ _
  | close => exact .close (allowed _ (.head _)) c _ _ _
  | buildDatagrams =>
    exact .buildDatagrams (allowed _ (.head _)) (allowed _ (.tail _ (.head _))) c _ _
  | buildPathControlDatagram => exact .buildPathControlDatagram c _ _ _ _ _
  | onTimeout => exact .onTimeout (allowed _ (.head _)) c _
  | setLevelKeys => exact .setLevelKeys (allowed _ (.head _)) c _ _ _
  | dropLevelKeys =>
    exact .dropLevelKeys (allowed _ (.head _)) (allowed _ (.tail _ (.head _))) c _
  | setHandshakeConfirmed => exact .locks (allowed _ (.head _)) (.of_spaces rfl rfl) rfl
  | initiateKeyUpdate => exact .initiateKeyUpdate (allowed _ (.head _)) c
  | commitPathMigration =>
    exact (Leaves.resetForNewPath c).trans (.opens (allowed _ (.head _)) rfl rfl)
  | beginPathValidation => exact .opens (allowed _ (.head _)) rfl rfl
  | cancelPathValidation => exact .opens (allowed _ (.head _)) rfl rfl
  | onPeerAddressChanged => exact .onPeerAddressChanged (allowed _ (.head _)) c _ _
  | issueNewConnectionId => exact .issueNewConnectionId c _ _
  | setMaximumUdpPayloadSize => exact .setMaximumUdpPayloadSize c _
  | admitPacket => exact .admitPacket (allowed _ (.head _)) c _ _ _
  | processFrame => exact .processFrame c _ _ _ allowed
  | creditDatagram => exact .opens (allowed _ (.head _)) rfl rfl
  | statelessReset => exact .opens (allowed _ (.head _)) rfl rfl

/-- Whether the frame can end the connection or validate its path. -/
def settlesOutlet : Frame → Bool
  | .connectionClose .. | .pathResponse .. => true
  | _ => false

theorem SameOutlet.processFrame (c : Connection) (level : Level) (mode : ReceiveMode)
    (clock : Clock) (other : settlesOutlet frame = false) :
    SameOutlet c (c.processFrame level mode clock frame).1 := by
  refine (Leaves.processFrame c level mode clock ?_).sameOutlet
  cases frame with
  | connectionClose => cases other
  | pathResponse => cases other
  | _ => simp [touchedByFrame]

/-- The calls that can change the outlet, or put a DATAGRAM frame in a queue. -/
def changesOutlet : Input → Bool
  | .queueDatagramFrame _ | .queueFrame .. | .close .. | .buildDatagrams .. | .onTimeout _
  | .dropLevelKeys _ | .commitPathMigration | .beginPathValidation _ | .cancelPathValidation
  | .onPeerAddressChanged .. | .creditDatagram .. | .statelessReset _ => true
  | .processFrame _ _ _ frame => settlesOutlet frame
  | _ => false

theorem SameOutlet.perform (c : Connection) (other : changesOutlet input = false) :
    SameOutlet c (c.perform input) := by
  cases input with
  | processFrame level mode clock frame => exact .processFrame c level mode clock other
  | _ =>
    refine (Leaves.perform c ?_).sameOutlet
    simp_all [touchedBy, changesOutlet]

end Connection
end SwStack.Quic
