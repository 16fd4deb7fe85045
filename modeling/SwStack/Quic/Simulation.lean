import SwStack.Quic.ReceiveChanges

/-! Every input is a chain of changes that the rules of the run permit. -/
namespace SwStack.Quic.Connection

open SwStack.Lib List

/-- What loss recovery makes of an ACK frame, unless the frame is refused. -/
def ackEvent (c : Connection) (level : Level) (clock : Clock) (largest firstAckRange : Nat)
    (wireRanges : List AckRange) : Option (LossRecovery × AckResult) :=
  match acknowledgedRanges largest firstAckRange wireRanges with
  | .error _ => none
  | .ok ranges =>
    match (c.spaces level).loss.onAckReceived largest ranges clock with
    | .error _ => none
    | .ok event => some event

/-- The frames of a packet on record. -/
def recordedFrames (c : Connection) (level : Level) (packetNumber : Nat) : List Frame :=
  match (c.spaces level).sentPackets.find? packetNumber with
  | some record => record.retransmittable
  | none => []

/-- The frames whose packets an input acknowledges. -/
def ackedFrames (c : Connection) : Input → List Frame
  | .processFrame level _ clock (.ack largest _ firstAckRange ranges _) =>
    match c.ackEvent level clock largest firstAckRange ranges with
    | some event => event.2.newlyAcked.flatMap (c.recordedFrames level)
    | none => []
  | _ => []

def unlessRefused (result : Connection × Option String) : Option Connection :=
  match result with
  | (c, none) => some c
  | (_, some _) => none

def settledAck (c : Connection) (level : Level) (clock : Clock) (largest firstAckRange : Nat)
    (wireRanges : List AckRange) : Option Connection :=
  (c.ackEvent level clock largest firstAckRange wireRanges).map fun event =>
    c.settleAck level clock event.1 event.2

def settledReset (c : Connection) (streamId errorCode finalSize : Nat) : Option Connection :=
  if c.isRetiredPeerBidirectional streamId then none
  else unlessRefused (c.receiveReset streamId errorCode finalSize)

def settledResetAt (c : Connection) (streamId errorCode finalSize reliableSize : Nat) :
    Option Connection :=
  if !c.setup.localParams.resetStreamAt then none
  else if finalSize < reliableSize then none
  else if c.isRetiredPeerBidirectional streamId then none
  else unlessRefused (c.receiveResetAt streamId errorCode finalSize reliableSize)

def settledRelease (c : Connection) (streamId : Nat) : Option Connection :=
  if !c.isPeerInitiatedBidirectional streamId then none
  else match c.sendStreams.find? streamId with
  | none => none
  | some stream =>
    if !stream.finQueued && !stream.resetQueued then none
    else if stream.peerCreditPending then none
    else some (c.releasePending streamId)

/-- The state in which an input tries to retire streams. -/
def settled (c : Connection) : Input → Option Connection
  | .readStream streamId => some (c.consumeStream streamId).1
  | .releasePeerBidirectionalStream streamId => c.settledRelease streamId
  | .processFrame level _ clock (.ack largest _ firstAckRange ranges _) =>
    c.settledAck level clock largest firstAckRange ranges
  | .processFrame _ _ _ (.resetStream streamId errorCode finalSize) =>
    c.settledReset streamId errorCode finalSize
  | .processFrame _ _ _ (.resetStreamAt streamId errorCode finalSize reliableSize) =>
    c.settledResetAt streamId errorCode finalSize reliableSize
  | _ => none

/-- The level whose keys an input discards. -/
def drops (c : Connection) : Input → Option Level
  | .dropLevelKeys level => some level
  | .processFrame _ _ _ .handshakeDone =>
    if c.setup.role = .client then some .handshake else none
  | _ => none

/-- Whether an input restarts loss recovery and congestion control on a new path. -/
def migrates (c : Connection) : Input → Bool
  | .commitPathMigration => true
  | .processFrame _ .active _ (.pathResponse data) =>
    c.driver.path.awaitingResponse && decide (data = c.driver.path.challengeData) &&
      c.driver.path.resetCcOnValidation
  | _ => false

/-- The stream whose send side an input resets. -/
def resets : Input → Option Nat
  | .resetStream streamId _ | .resetStreamAt streamId _ _
  | .processFrame _ _ _ (.stopSending streamId _) => some streamId
  | _ => none

/-- What an input may do to the receive tables. -/
def ReceivePermits (rules : Rules) : Input → Prop
  | .processFrame _ _ _ (.stream streamId ..) | .injectEarlyStream streamId .. |
    .readStream streamId => ∀ c d, ReceiveOnly streamId c d → rules.receive c d
  | .processFrame _ _ _ (.resetStream streamId ..)
  | .processFrame _ _ _ (.resetStreamAt streamId ..) =>
    ∀ c d, ReceiveOnly streamId c d → d.receive.streams = c.receive.streams → rules.receive c d
  | .processFrame _ _ _ (.maxStreamData streamId _) =>
    ∀ c d, ReceiveOnly streamId c d → d.connectionFlow = c.connectionFlow →
      d.receive = { c.receive with peerStreamMaxData := d.receive.peerStreamMaxData } →
      rules.receive c d
  | _ => True

/-- Every stream that meets the retirement test may be retired. -/
def MayRetire (rules : Rules) (settled : Connection) : Prop :=
  ∀ streamId stream, settled.sendStreams.find? streamId = some stream →
    settled.retires streamId stream = true → rules.retire stream

/-- The rules admit everything an input does. -/
structure Permits (rules : Rules) (c : Connection) (input : Input) : Prop where
  append : ∀ streamId data fin, input = .sendStreamData streamId data fin →
    rules.append streamId data fin
  reset : ∀ streamId, resets input = some streamId → rules.reset (c.sendStream streamId)
  queue : ∀ level frame, input = .queueFrame level frame → frame.isStream = true →
    rules.queue frame
  acknowledged : ∀ frame ∈ c.ackedFrames input, rules.acknowledged frame
  receive : ReceivePermits rules input
  drop : ∀ level, c.drops input = some level → rules.drop c.ledger level
  migrate : c.migrates input = true → rules.migrate c.ledger
  retire : ∀ settled, c.settled input = some settled → MayRetire rules settled

variable {rules : Rules} {c d : Connection}

theorem enqueueAll_changes (c : Connection) (level : Level)
    (control : ∀ frame ∈ frames, frame.isStream = false) :
    Changes rules c (c.enqueueAll level frames) := by
  refine .single (Change.enqueue fun frame member data => ?_)
  rw [control frame member] at data
  contradiction

variable {mode : ReceiveMode} {level : Level} {clock : Clock}

theorem processAckFrame_changes {ranges : List AckRange}
    (permits : Permits rules c (.processFrame level mode clock
      (.ack largest ackDelay firstAckRange ranges ecn))) :
    Changes rules c (c.processAckFrame level clock largest firstAckRange ranges).1 := by
  have acknowledged := permits.acknowledged
  have retire : ∀ settled, c.settledAck level clock largest firstAckRange ranges = some settled →
      MayRetire rules settled := permits.retire
  unfold ackedFrames ackEvent at acknowledged
  unfold settledAck ackEvent at retire
  unfold processAckFrame
  cases decoded : acknowledgedRanges largest firstAckRange ranges with
  | error message => exact .refl
  | ok decodedRanges =>
    dsimp only
    cases received : (c.spaces level).loss.onAckReceived largest decodedRanges clock with
    | error message => exact .refl
    | ok event =>
      obtain ⟨loss, result⟩ := event
      simp only [decoded, received, Option.map_some, Option.some.injEq] at acknowledged retire
      refine Relation.ReflTransGen.tail (Relation.ReflTransGen.trans ?_
        (retireAcknowledgedPeerStreams_changes (c.settleAck level clock loss result)
          (retire _ rfl))) (.quiet (refreshInFlightFlag_quiet _ level))
      refine settleAck_changes (LossRecovery.onAckReceived_sent received) ?_
      intro number member record found frame carried
      refine acknowledged frame (mem_flatMap.mpr ⟨number, member, ?_⟩)
      simp only [recordedFrames, found]
      exact carried

theorem retireUnlessFailed_changes (received : Changes rules c result.1)
    (permitted : ∀ settled, unlessRefused result = some settled → MayRetire rules settled) :
    Changes rules c (retireUnlessFailed result).1 := by
  unfold retireUnlessFailed andThen
  split
  · exact received.trans (retireAcknowledgedPeerStreams_changes _ (permitted _ rfl))
  · exact received

variable {streamId : Nat}

theorem processResetStreamFrame_changes (permits : Permits rules c (.processFrame level mode clock
      (.resetStream streamId errorCode finalSize))) :
    Changes rules c (c.processResetStreamFrame streamId errorCode finalSize).1 := by
  have retire : ∀ settled, c.settledReset streamId errorCode finalSize = some settled →
      MayRetire rules settled := permits.retire
  unfold settledReset at retire
  unfold processResetStreamFrame
  split
  · exact .refl
  · rename_i live
    rw [if_neg live] at retire
    refine retireUnlessFailed_changes ?_ retire
    exact (receiveReset_receives permits.receive c errorCode finalSize).changes
      (by simpa using live)

theorem processResetStreamAtFrame_changes (permits : Permits rules c (.processFrame level mode clock
      (.resetStreamAt streamId errorCode finalSize reliableSize))) :
    Changes rules c
      (c.processResetStreamAtFrame streamId errorCode finalSize reliableSize).1 := by
  have retire : ∀ settled, c.settledResetAt streamId errorCode finalSize reliableSize =
      some settled → MayRetire rules settled := permits.retire
  unfold settledResetAt at retire
  unfold processResetStreamAtFrame
  split
  · exact .refl
  · rename_i negotiated
    rw [if_neg negotiated] at retire
    split
    · exact .refl
    · rename_i covered
      rw [if_neg covered] at retire
      split
      · exact .refl
      · rename_i live
        rw [if_neg live] at retire
        refine retireUnlessFailed_changes ?_ retire
        exact (receiveResetAt_receives permits.receive c errorCode finalSize reliableSize).changes
          (by simpa using live)

theorem processStreamFrame_changes
    (data : ∀ c d, ReceiveOnly streamId c d → rules.receive c d) (c : Connection) (offset : Nat)
    (bytes : Bytes) (fin : Bool) :
    Changes rules c (c.processStreamFrame streamId offset bytes fin).1 := by
  by_cases gone : c.isRetiredPeerBidirectional streamId = true
  · rw [processStreamFrame, if_pos gone]
  · exact (processStreamFrame_receives data c offset bytes fin).changes
      (by simpa using gone)

theorem processMaxStreamData_changes {maximum : Nat}
    (permits : Permits rules c (.processFrame level mode clock (.maxStreamData streamId maximum))) :
    Changes rules c (c.processMaxStreamData streamId maximum).1 := by
  unfold processMaxStreamData
  split
  · exact .refl
  · rename_i live
    split
    · exact .refl
    · have only : ReceiveOnly streamId c { c with
          receive.peerStreamMaxData := c.receive.peerStreamMaxData.insert streamId
            (max ((c.receive.peerStreamMaxData.find? streamId).getD 0) maximum) } := by
        refine ⟨rfl, ?_, fun _ armed => armed⟩
        constructor <;> intro other different <;> simp [SortedMap.find?_insert, different]
      exact .single (.receive (by simpa using live) only (permits.receive _ _ only rfl rfl))

theorem processStopSending_changes (retirement : Retirement c)
    (permitted : rules.reset (c.sendStream streamId)) (errorCode : Nat) :
    Changes rules c (c.processStopSending streamId errorCode).1 := by
  unfold processStopSending
  split
  · exact .refl
  · split
    · exact .refl
    · exact resetStream_changes retirement permitted errorCode

theorem processNewConnectionId_changes (c : Connection) (sequenceNumber retirePriorTo : Nat)
    (connectionId token : Bytes) :
    Changes rules c
      (c.processNewConnectionId sequenceNumber retirePriorTo connectionId token).1 := by
  have retired : Changes rules c (c.retirePeerConnectionIds retirePriorTo) := by
    unfold retirePeerConnectionIds
    dsimp only
    refine Relation.ReflTransGen.trans (Quiet.changes ?_)
      (enqueueAll_changes _ _ fun frame member => ?_)
    · exact ⟨rfl, rfl, rfl, fun _ armed => armed⟩
    obtain ⟨number, -, rfl⟩ := mem_map.mp member
    rfl
  have adopted : ∀ c, Quiet c
      (adoptPeerConnectionIdIfRetired c sequenceNumber retirePriorTo connectionId) := by
    intro c
    unfold adoptPeerConnectionIdIfRetired
    split
    · exact .refl c
    · exact ⟨rfl, rfl, rfl, fun _ armed => armed⟩
  unfold processNewConnectionId
  split
  · exact .refl
  · dsimp only
    split
    · split
      · exact retired
      · split
        · exact retired
        · refine retired.tail (.quiet (Quiet.trans ?_ (adopted _)))
          exact ⟨rfl, rfl, rfl, fun _ armed => armed⟩
    · split
      · exact retired
      · refine retired.tail (.quiet (Quiet.trans ?_ (adopted _)))
        exact ⟨rfl, rfl, rfl, fun _ armed => armed⟩

theorem dropLevelKeys_changes (permitted : rules.drop c.ledger level) :
    Changes rules c (c.dropLevelKeys level) := .single (.drop permitted)

theorem processPathResponse_changes
    (permits : Permits rules c (.processFrame level .active clock (.pathResponse data))) :
    Changes rules c (c.processPathResponse data) := by
  have migrate : (c.driver.path.awaitingResponse && decide (data = c.driver.path.challengeData) &&
      c.driver.path.resetCcOnValidation) = true → rules.migrate c.ledger := permits.migrate
  unfold processPathResponse
  split
  · rename_i answers
    split
    · rename_i resets
      have moved : Change rules c c.resetForNewPath :=
        .migrate (migrate (by simp [answers.1, answers.2, resets]))
      exact (Relation.ReflTransGen.single moved).tail
        (.quiet ⟨rfl, rfl, rfl, fun _ armed => armed⟩)
    · exact Quiet.changes ⟨rfl, rfl, rfl, fun _ armed => armed⟩
  · exact .refl

theorem processDatagram_quiet (c : Connection) (data : Bytes) :
    Quiet c (c.processDatagram data).1 := by
  unfold processDatagram
  dsimp only
  repeat' split
  all_goals exact ⟨rfl, rfl, rfl, fun _ armed => armed⟩

theorem processFrame_changes (retirement : Retirement c) {frame : Frame}
    (permits : Permits rules c (.processFrame level mode clock frame)) :
    Changes rules c (c.processFrame level mode clock frame).1 := by
  have quiet {d : Connection} (quiet : Quiet c d) : Changes rules c d := quiet.changes
  cases frame with
  | padding _ | ping | crypto _ _ | newToken _ | dataBlocked _ | streamDataBlocked _ _
  | streamsBlocked _ _ => exact .refl
  | ack largest delay firstAckRange ranges ecn => exact processAckFrame_changes permits
  | resetStream streamId errorCode finalSize => exact processResetStreamFrame_changes permits
  | resetStreamAt streamId errorCode finalSize reliableSize =>
    exact processResetStreamAtFrame_changes permits
  | stopSending streamId errorCode =>
    exact processStopSending_changes retirement (permits.reset streamId rfl) errorCode
  | stream streamId offset data fin =>
    exact processStreamFrame_changes permits.receive c offset data fin
  | maxData maximum => exact quiet ⟨rfl, rfl, rfl, fun _ armed => armed⟩
  | maxStreamData streamId maximum => exact processMaxStreamData_changes permits
  | maxStreams bidirectional maximum =>
    unfold processFrame
    dsimp only
    split <;> exact quiet ⟨rfl, rfl, rfl, fun _ armed => armed⟩
  | newConnectionId sequenceNumber retirePriorTo connectionId token =>
    exact processNewConnectionId_changes c _ _ _ _
  | retireConnectionId sequenceNumber =>
    unfold processFrame
    dsimp only
    split <;> exact quiet ⟨rfl, rfl, rfl, fun _ armed => armed⟩
  | pathChallenge data =>
    unfold processFrame
    dsimp only
    split
    · exact enqueue_changes c _ _ rfl
    · exact .refl
  | pathResponse data =>
    unfold processFrame
    dsimp only
    split
    · rename_i active
      subst active
      exact processPathResponse_changes permits
    · exact .refl
  | connectionClose applicationClose errorCode errorFrameType reason =>
    exact quiet ⟨rfl, rfl, rfl, fun _ armed => armed⟩
  | handshakeDone =>
    have drop := permits.drop
    unfold drops at drop
    unfold processFrame
    dsimp only at drop ⊢
    split
    · rename_i client
      have confirmed : Quiet c (c.setHandshakeConfirmed true) :=
        ⟨rfl, rfl, rfl, fun _ armed => armed⟩
      have dropped : Changes rules (c.setHandshakeConfirmed true)
          ((c.setHandshakeConfirmed true).dropLevelKeys .handshake) :=
        dropLevelKeys_changes (drop .handshake (if_pos client))
      exact confirmed.changes.trans dropped
    · exact .refl
  | datagram data => exact quiet (processDatagram_quiet c data)

theorem advanceKeyPhase_quiet (c : Connection) : Quiet c c.advanceKeyPhase.1 := by
  unfold advanceKeyPhase
  split
  · exact .refl c
  · split
    · have installed (rx tx : TrafficKeys) : Quiet c (c.setSpace .application
          { c.app with rxKeys := some rx, txKeys := some tx }) :=
        Quiet.setSpace c rfl rfl rfl rfl fun _ => rfl
      exact (installed _ _).trans ⟨rfl, rfl, rfl, fun _ armed => armed⟩
    · exact .refl c

theorem admitDecoded_quiet (c : Connection) (mode : ReceiveMode) (nowMs : Nat) (packet : Packet) :
    Quiet c (c.admitDecoded mode nowMs packet).connection := by
  unfold admitDecoded
  split
  · exact .refl c
  · exact Quiet.setSpace c rfl rfl rfl rfl id

theorem admitPacket_quiet (c : Connection) (mode : ReceiveMode) (nowMs : Nat) (packet : Packet) :
    Quiet c (c.admitPacket mode nowMs packet).connection := by
  unfold admitPacket
  split
  · unfold admitShortHeader
    split
    · exact .refl c
    · split
      · exact .refl c
      · split
        · exact .refl c
        · rename_i opened _ _
          have advanced : Quiet c (if opened = .next then c.advanceKeyPhase else (c, none)).1 := by
            split
            · exact advanceKeyPhase_quiet c
            · exact .refl c
          generalize (if opened = .next then c.advanceKeyPhase else (c, none)) = result
            at advanced ⊢
          rcases result with ⟨next, _ | message⟩
          · exact advanced.trans (admitDecoded_quiet next mode nowMs packet)
          · exact advanced
  · unfold admitLongHeader
    repeat' split
    all_goals first | exact .refl c | exact admitDecoded_quiet c mode nowMs packet

theorem mem_probeFrames (member : frame ∈ c.probeFrames records) :
    frame = .ping ∨ ∃ record ∈ records, frame ∈ record.retransmittable := by
  induction records with
  | nil => exact .inl (mem_singleton.mp member)
  | cons record rest ih =>
    rw [probeFrames] at member
    split at member
    · refine (ih member).imp id fun ⟨other, present, carried⟩ => ?_
      exact ⟨other, mem_cons_of_mem _ present, carried⟩
    · exact .inr ⟨record, mem_cons_self, (mem_filter.mp member).1⟩

theorem armProbe_quiet (c : Connection) (level : Level) : Quiet c (c.armProbe level) := by
  have armed : Quiet c (c.setSpace level { c.spaces level with
      probesPending := if (c.spaces level).probesPending < 2 then
        (c.spaces level).probesPending + 1 else (c.spaces level).probesPending }) :=
    Quiet.setSpace c rfl rfl rfl rfl id
  exact armed.trans ⟨rfl, rfl, rfl, fun _ armed => armed⟩

theorem firePto_changes (c : Connection) (clock : Clock) (level : Level) :
    Changes rules c (firePto clock c level) := by
  unfold firePto
  split
  · exact .refl
  · split
    · refine Relation.ReflTransGen.tail (.single (.enqueue ?_)) (.quiet (armProbe_quiet _ level))
      · intro frame member data
        rcases mem_probeFrames member with rfl | ⟨record, recorded, carried⟩
        · cases data
        · obtain ⟨entry, held, rfl⟩ := mem_map.mp recorded
          exact .inr ⟨entry, held, carried⟩
    · exact .refl

theorem onTimeout_changes (c : Connection) (clock : Clock) :
    Changes rules c (c.onTimeout clock) := by
  unfold onTimeout
  split
  · exact Quiet.changes ⟨rfl, rfl, rfl, fun _ armed => armed⟩
  · split
    · exact Quiet.changes ⟨rfl, rfl, rfl, fun _ armed => armed⟩
    · exact ((firePto_changes c clock .initial).trans (firePto_changes _ clock .handshake)).trans
        (firePto_changes _ clock .application)

theorem consumeStream_changes (retirement : Retirement c)
    (data : ∀ c d, ReceiveOnly streamId c d → rules.receive c d) :
    Changes rules c (c.consumeStream streamId).1 := by
  by_cases gone : c.isRetiredPeerBidirectional streamId = true
  · have lacks := retirement.tables streamId gone
    have same : (c.consumeStream streamId).1 = c := by
      simp [consumeStream, readContiguous, creditRead, applyReliableReset, lacks.streams,
        lacks.pendingReliableResets]
    rw [same]
  · exact (consumeStream_receives data c).changes (by simpa using gone)

theorem releasePeerBidirectionalStream_changes
    (permitted : ∀ settled, c.settledRelease streamId = some settled → MayRetire rules settled) :
    Changes rules c (c.releasePeerBidirectionalStream streamId).1 := by
  unfold settledRelease at permitted
  unfold releasePeerBidirectionalStream
  split
  · exact .refl
  · rename_i peer
    rw [if_neg peer] at permitted
    cases found : c.sendStreams.find? streamId with
    | none => exact .refl
    | some stream =>
      simp only [found] at permitted
      dsimp only
      split
      · exact .refl
      · rename_i finished
        rw [if_neg finished] at permitted
        split
        · exact .refl
        · rename_i fresh
          rw [if_neg fresh] at permitted
          exact (Relation.ReflTransGen.single (.release found (by simpa using peer))).trans
            (retireAcknowledgedPeerStreams_changes _ (permitted _ rfl))

theorem setLevelKeys_quiet (c : Connection) (level : Level) (rxKeys txKeys : TrafficKeys) :
    Quiet c (c.setLevelKeys level rxKeys txKeys) := by
  have installed : Quiet c (c.installKeys level rxKeys txKeys) := by
    unfold installKeys
    exact Quiet.setSpace c rfl rfl rfl rfl fun _ => rfl
  unfold setLevelKeys
  split
  · exact installed.trans ⟨rfl, rfl, rfl, fun _ armed => armed⟩
  · exact installed

theorem initiateKeyUpdate_quiet (c : Connection) : Quiet c c.initiateKeyUpdate.1 := by
  unfold initiateKeyUpdate
  repeat' split
  all_goals first | exact .refl c | exact advanceKeyPhase_quiet c

/-- The simulation: one input, one chain of permitted changes. -/
theorem perform_changes (retirement : Retirement c)
    (permits : Permits rules c input) : Changes rules c (c.perform input) := by
  have quiet {d : Connection} (quiet : Quiet c d) : Changes rules c d := quiet.changes
  cases input with
  | sendStreamData streamId data fin =>
    exact sendStreamData_changes retirement (permits.append _ _ _ rfl)
  | resetStream streamId errorCode =>
    exact resetStream_changes retirement (permits.reset streamId rfl) errorCode
  | resetStreamAt streamId errorCode reliableSize =>
    exact resetStreamAt_changes retirement (permits.reset streamId rfl) errorCode reliableSize
  | stopReceivingStream streamId errorCode => exact stopReceivingStream_changes c _ _
  | readStream streamId =>
    exact (consumeStream_changes retirement permits.receive).trans
      (retireAcknowledgedPeerStreams_changes _ (permits.retire _ rfl))
  | releasePeerBidirectionalStream streamId =>
    exact releasePeerBidirectionalStream_changes permits.retire
  | queueDatagramFrame data => exact quiet (queueDatagramFrame_quiet c data)
  | queueFrame level frame => exact queueFrame_changes c level frame (permits.queue _ _ rfl)
  | takeDatagram =>
    refine quiet ?_
    unfold perform takeDatagram
    dsimp only
    split <;> exact ⟨rfl, rfl, rfl, fun _ armed => armed⟩
  | registerLocalStream streamId => exact quiet ⟨rfl, rfl, rfl, fun _ armed => armed⟩
  | injectEarlyStream streamId offset data fin =>
    exact processStreamFrame_changes permits.receive c offset data fin
  | close errorCode reason isApplication =>
    refine quiet ?_
    unfold perform close
    dsimp only
    split <;> exact ⟨rfl, rfl, rfl, fun _ armed => armed⟩
  | buildDatagrams clock seals => exact buildDatagrams_changes c clock seals
  | buildPathControlDatagram response controlData nowMs maxWireBytes seals =>
    exact buildPathControlDatagram_changes c _ _ _ _ _
  | onTimeout clock => exact onTimeout_changes c clock
  | setLevelKeys level rxKeys txKeys => exact quiet (setLevelKeys_quiet c _ _ _)
  | dropLevelKeys level => exact dropLevelKeys_changes (permits.drop level rfl)
  | setHandshakeConfirmed confirmed => exact quiet ⟨rfl, rfl, rfl, fun _ armed => armed⟩
  | initiateKeyUpdate => exact quiet (initiateKeyUpdate_quiet c)
  | commitPathMigration =>
    have moved : Change rules c c.resetForNewPath := .migrate (permits.migrate rfl)
    exact (Relation.ReflTransGen.single moved).tail (.quiet ⟨rfl, rfl, rfl, fun _ armed => armed⟩)
  | beginPathValidation challenge => exact quiet ⟨rfl, rfl, rfl, fun _ armed => armed⟩
  | cancelPathValidation => exact quiet ⟨rfl, rfl, rfl, fun _ armed => armed⟩
  | onPeerAddressChanged receivedBytes challenge =>
    unfold perform onPeerAddressChanged
    dsimp only
    split
    · exact .refl
    · refine Relation.ReflTransGen.trans (quiet ?_) (enqueue_changes _ _ _ rfl)
      exact ⟨rfl, rfl, rfl, fun _ armed => armed⟩
  | issueNewConnectionId connectionId token =>
    unfold perform issueNewConnectionId
    dsimp only
    refine Relation.ReflTransGen.trans (quiet ?_) (enqueue_changes _ _ _ rfl)
    exact ⟨rfl, rfl, rfl, fun _ armed => armed⟩
  | setMaximumUdpPayloadSize maximum =>
    refine quiet ?_
    unfold perform setMaximumUdpPayloadSize
    dsimp only
    repeat' split
    all_goals exact ⟨rfl, rfl, rfl, fun _ armed => armed⟩
  | admitPacket mode nowMs packet => exact quiet (admitPacket_quiet c mode nowMs packet)
  | processFrame level mode clock frame => exact processFrame_changes retirement permits
  | creditDatagram bytes nowMs => exact quiet ⟨rfl, rfl, rfl, fun _ armed => armed⟩
  | statelessReset clock => exact quiet ⟨rfl, rfl, rfl, fun _ armed => armed⟩

end SwStack.Quic.Connection
