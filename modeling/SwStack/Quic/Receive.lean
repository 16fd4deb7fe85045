import SwStack.Quic.Send

/-! The receive path: authenticated packets, their frames, and what acknowledgements and
losses do to the send state. -/
namespace SwStack.Quic

open SwStack.Lib

/-- How a received packet is processed: on the active path, with path events handed to the
driver, or only inspected for them. -/
inductive ReceiveMode where
  | active
  | withPathEvents
  | inspectPath
  deriving DecidableEq

def kPersistentLossCount : Nat := 2

namespace Connection

def installKeys (c : Connection) (level : Level) (rxKeys txKeys : TrafficKeys) : Connection :=
  c.setSpace level { c.spaces level with rxKeys := some rxKeys, txKeys := some txKeys }

/-- The update state of freshly installed 1-RTT keys. -/
def freshKeyUpdate (c : Connection) (rxKeys txKeys : TrafficKeys) : KeyUpdate :=
  { keyPhase := false
    nextKeys := match deriveNextGenerationKeys rxKeys, deriveNextGenerationKeys txKeys with
      | some nextRx, some nextTx => some (nextRx, nextTx)
      | _, _ => none
    prevRxKeys := none
    currentPhaseTxAcked := false
    currentPhaseFirstTxPn := c.app.nextTxPn
    keyUpdateCount := 0 }

def setLevelKeys (c : Connection) (level : Level) (rxKeys txKeys : TrafficKeys) : Connection :=
  if level = .application then
    { c.installKeys level rxKeys txKeys with keys := c.freshKeyUpdate rxKeys txKeys }
  else c.installKeys level rxKeys txKeys

def clearSpace (c : Connection) (level : Level) : Connection :=
  c.setSpace level { c.spaces level with
    rxKeys := none, txKeys := none, pendingFrames := [], sentPackets := ∅, ackTracker := .empty
    ackDeadlineMs := none }

def dropLevelKeys (c : Connection) (level : Level) : Connection :=
  if level = .application then
    { c.clearSpace level with
      driver.datagrams := { c.driver.datagrams with pendingFrames := [], pendingFrameBytes := 0 }
      keys := { c.keys with nextKeys := none, prevRxKeys := none } }
  else c.clearSpace level

/-- Both directions move one generation forward; the old receive keys stay. -/
def advanceKeyPhase (c : Connection) : Connection × Option String :=
  match c.keys.nextKeys with
  | none => (c, some "QUIC traffic secret unavailable for key update")
  | some (nextRx, nextTx) =>
    match deriveNextGenerationKeys nextRx, deriveNextGenerationKeys nextTx with
    | some followingRx, some followingTx =>
      ({ c.setSpace .application { c.app with rxKeys := some nextRx, txKeys := some nextTx } with
        keys := {
          keyPhase := !c.keys.keyPhase
          nextKeys := some (followingRx, followingTx)
          prevRxKeys := c.app.rxKeys
          currentPhaseTxAcked := false
          currentPhaseFirstTxPn := c.app.nextTxPn
          keyUpdateCount := c.keys.keyUpdateCount + 1 } }, none)
    | _, _ => (c, some "QUIC traffic secret unavailable for key update")

def initiateKeyUpdate (c : Connection) : Connection × Option String :=
  if !c.handshakeConfirmed then (c, some "QUIC key update before handshake confirmation")
  else if c.app.rxKeys.isNone || c.app.txKeys.isNone || c.keys.nextKeys.isNone then
    (c, some "QUIC key update requires 1-RTT keys derived from traffic secrets")
  else if !c.keys.currentPhaseTxAcked then
    (c, some "QUIC key update requires an acknowledged packet in the current key phase")
  else c.advanceKeyPhase

/-- What a validated new path starts from. -/
def resetForNewPath (c : Connection) : Connection :=
  { c.setSpace .application { c.app with loss := .empty } with congestion := .initial }

def validatedPath (c : Connection) : Path :=
  { c.driver.path with
    validated := true, awaitingResponse := false, resetCcOnValidation := false
    bytesReceived := 0, bytesSent := 0 }

def commitPathMigration (c : Connection) : Connection :=
  { c.resetForNewPath with driver.path := c.validatedPath }

def beginPathValidation (c : Connection) (challenge : Bytes) : Connection :=
  { c with driver.path := { c.driver.path with
      challengeData := challenge, awaitingResponse := true, resetCcOnValidation := true } }

def cancelPathValidation (c : Connection) : Connection :=
  { c with driver.path := { c.driver.path with
      challengeData := [], awaitingResponse := false, resetCcOnValidation := false } }

def onPeerAddressChanged (c : Connection) (receivedBytes : Nat) (challenge : Bytes) : Connection :=
  if c.state ≠ .opened then c
  else
    let c := c.beginPathValidation challenge
    enqueue { c with
      driver.path.validated := false
      driver.path.bytesSent := 0
      driver.path.bytesReceived := receivedBytes } .application (.pathChallenge challenge)

def processPathResponse (c : Connection) (data : Bytes) : Connection :=
  if c.driver.path.awaitingResponse ∧ data = c.driver.path.challengeData then
    if c.driver.path.resetCcOnValidation then
      { c.resetForNewPath with driver.path := c.validatedPath }
    else { c with driver.path := c.validatedPath }
  else c

/-- The inclusive ranges an ACK frame names, in wire order. -/
def ackRanges (low : Nat) : List AckRange → Except String (List (Nat × Nat))
  | [] => .ok []
  | range :: rest =>
    if low < range.gap + 2 then .error "QUIC ACK range underflows"
    else
      let high := low - range.gap - 2
      if high < range.rangeLength then .error "QUIC ACK range length underflows"
      else match ackRanges (high - range.rangeLength) rest with
        | .ok ranges => .ok ((high - range.rangeLength, high) :: ranges)
        | .error message => .error message

def acknowledgedRanges (largest firstAckRange : Nat) (wireRanges : List AckRange) :
    Except String (List (Nat × Nat)) :=
  if largest < firstAckRange then .error "QUIC ACK first range underflows"
  else match ackRanges (largest - firstAckRange) wireRanges with
    | .ok ranges => .ok ((largest - firstAckRange, largest) :: ranges)
    | .error message => .error message

/-- What the acknowledgement of a frame tells its send stream. -/
def acknowledgeFrame (sendStreams : SortedMap Nat SendStream) (frame : Frame) :
    SortedMap Nat SendStream :=
  match frame with
  | .stream streamId offset data fin =>
    match sendStreams.find? streamId with
    | some stream =>
      let acked := stream.acknowledgeRange offset data.length
      sendStreams.insert streamId { acked with finAcked := acked.finAcked || fin }
    | none => sendStreams
  | .resetStream streamId .. | .resetStreamAt streamId .. =>
    match sendStreams.find? streamId with
    | some stream => sendStreams.insert streamId { stream with resetAcked := true }
    | none => sendStreams
  | _ => sendStreams

def forgetPacket (c : Connection) (level : Level) (packetNumber : Nat) : Connection :=
  c.setSpace level { c.spaces level with
    sentPackets := (c.spaces level).sentPackets.erase packetNumber }

def acknowledgePacket (level : Level) (c : Connection) (packetNumber : Nat) : Connection :=
  match (c.spaces level).sentPackets.find? packetNumber with
  | none => c
  | some record =>
    { c.forgetPacket level packetNumber with
      congestion := if record.ackEliciting then
          c.congestion.onPacketAcked record.sentBytes record.sentTimeMs
        else c.congestion
      sendStreams := record.retransmittable.foldl acknowledgeFrame c.sendStreams }

def shouldRetransmitFrame (c : Connection) (frame : Frame) : Bool :=
  match frame with
  | .stopSending streamId .. | .maxStreamData streamId .. =>
    !c.isRetiredPeerBidirectional streamId
  | .resetStream streamId .. | .resetStreamAt streamId .. =>
    !c.isRetiredPeerBidirectional streamId &&
      match c.sendStreams.find? streamId with
      | some stream => !stream.resetAcked
      | none => true
  | .stream streamId offset data fin =>
    !c.isRetiredPeerBidirectional streamId &&
      match c.sendStreams.find? streamId with
      | some stream =>
        if stream.resetQueued then stream.resetAt && decide (offset < stream.resetReliableSize)
        else !stream.isRangeAcked offset data.length || (fin && !stream.finAcked)
      | none => true
  | _ => true

def enqueueAll (c : Connection) (level : Level) (frames : List Frame) : Connection :=
  c.setSpace level { c.spaces level with
    pendingFrames := (c.spaces level).pendingFrames ++ frames }

/-- The send times of the ack-eliciting packets an ACK event declares lost. -/
structure LostSpan where
  count : Nat
  earliest : Nat
  latest : Nat
  deriving DecidableEq

def LostSpan.add (span : LostSpan) (sentTimeMs : Nat) : LostSpan :=
  { count := span.count + 1
    earliest := if span.count = 0 then sentTimeMs else min span.earliest sentTimeMs
    latest := if span.count = 0 then sentTimeMs else max span.latest sentTimeMs }

/-- A lost packet's frames that are still of use go back in the queue. -/
def requeueLost (c : Connection) (level : Level) (nowMs packetNumber : Nat) (record : SentRecord) :
    Connection :=
  { (c.enqueueAll level (record.retransmittable.filter c.shouldRetransmitFrame)).forgetPacket level
      packetNumber with
    congestion := if record.ackEliciting then
        c.congestion.onPacketsLost record.sentBytes record.sentTimeMs nowMs
      else c.congestion }

def losePacket (level : Level) (nowMs : Nat) (state : Connection × LostSpan) (packetNumber : Nat) :
    Connection × LostSpan :=
  match (state.1.spaces level).sentPackets.find? packetNumber with
  | none => state
  | some record =>
    (state.1.requeueLost level nowMs packetNumber record,
      if record.ackEliciting then state.2.add record.sentTimeMs else state.2)

def refreshInFlightFlag (c : Connection) (level : Level) : Connection :=
  let space := c.spaces level
  c.setSpace level { space with
    hasAckElicitingInFlight := space.sentPackets.values.any SentRecord.ackEliciting }

/-- The packets an ACK takes out of loss recovery, and what it resets with it. -/
def startAck (c : Connection) (level : Level) (loss : LossRecovery) (result : AckResult) :
    Connection :=
  { c.setSpace level { c.spaces level with loss := loss, probesPending := 0 } with
    driver.timers.ptoCount := 0
    keys.currentPhaseTxAcked := c.keys.currentPhaseTxAcked ||
      (level = .application && result.newlyAcked.any fun packetNumber =>
        decide (c.keys.currentPhaseFirstTxPn ≤ packetNumber)) }

def detectPersistentCongestion (level : Level) (clock : Clock) (state : Connection × LostSpan) :
    Connection :=
  if (state.1.spaces level).loss.hasRttSample ∧ kPersistentLossCount ≤ state.2.count ∧
      clock.persistentDurationMs ≤ state.2.latest - state.2.earliest then
    { state.1 with congestion := state.1.congestion.onPersistentCongestion }
  else state.1

/-- An ACK event up to the point where streams are retired. -/
def settleAck (c : Connection) (level : Level) (clock : Clock) (loss : LossRecovery)
    (result : AckResult) : Connection :=
  detectPersistentCongestion level clock
    (result.lost.foldl (losePacket level clock.nowMs)
      (result.newlyAcked.foldl (acknowledgePacket level) (c.startAck level loss result), ⟨0, 0, 0⟩))

def processAckFrame (c : Connection) (level : Level) (clock : Clock)
    (largest firstAckRange : Nat) (wireRanges : List AckRange) : Connection × Option String :=
  match acknowledgedRanges largest firstAckRange wireRanges with
  | .error message => (c, some message)
  | .ok ranges =>
    match (c.spaces level).loss.onAckReceived largest ranges clock with
    | .error message => (c, some message)
    | .ok (loss, result) =>
      ((c.settleAck level clock loss result).retireAcknowledgedPeerStreams
        |>.refreshInFlightFlag level, none)

def andThen (result : Connection × Option String)
    (next : Connection → Connection × Option String) : Connection × Option String :=
  match result with
  | (c, none) => next c
  | (c, some message) => (c, some message)

/-- The entry `streamFlowControl_` creates on a first lookup. -/
def touchStreamFlow (c : Connection) (streamId : Nat) : Connection :=
  c.setStreamFlow streamId (c.streamFlowControl streamId)

def accountStream (c : Connection) (streamId offset length : Nat) : Connection × Option String :=
  match (c.streamFlowControl streamId).onDataReceived offset length with
  | .ok flow => (c.setStreamFlow streamId flow, none)
  | .error message => (c.touchStreamFlow streamId, some message)

def accountConnection (c : Connection) (length : Nat) : Connection × Option String :=
  match c.connectionFlow.onDataReceived length with
  | .ok flow => ({ c with connectionFlow := flow }, none)
  | .error message => (c, some message)

def highestReceived (c : Connection) (streamId : Nat) : Nat :=
  (c.streamFlowControl streamId).highestReceivedOffset

/-- Accounts bytes of a stream. The connection counts what raises the highest offset. -/
def accountBytes (c : Connection) (streamId offset length : Nat) : Connection × Option String :=
  andThen (c.accountStream streamId offset length) fun accounted =>
    if c.highestReceived streamId < accounted.highestReceived streamId then
      accounted.accountConnection
        (accounted.highestReceived streamId - c.highestReceived streamId)
    else (accounted, none)

/-- Accounts the stream bytes up to `finalSize` that no frame has carried yet. -/
def accountFinalSize (c : Connection) (streamId finalSize : Nat) : Connection × Option String :=
  if c.highestReceived streamId < finalSize then
    c.accountBytes streamId (c.highestReceived streamId) (finalSize - c.highestReceived streamId)
  else (c, none)

def finalSizeConflicts (c : Connection) (streamId finalSize : Nat) : Bool :=
  decide (finalSize < c.highestReceived streamId) ||
    match c.receive.streamFinalSize.find? streamId with
    | some established => decide (established ≠ finalSize)
    | none => false

/-- Credits the bytes a reset discards: all that the application has not consumed. -/
def creditDiscarded (c : Connection) (streamId finalSize : Nat) : Connection :=
  if (c.streamFlowControl streamId).bytesConsumed < finalSize then
    c.creditFlowControl streamId (finalSize - (c.streamFlowControl streamId).bytesConsumed)
  else c

def recordReset (c : Connection) (streamId errorCode finalSize : Nat) : Connection :=
  { c with
    receive.resetStreams := c.receive.resetStreams.insert streamId errorCode
    receive.streamFinalSize := c.receive.streamFinalSize.insert streamId finalSize }

/-- `processResetStreamFrame_` up to the retirement it attempts. -/
def receiveReset (c : Connection) (streamId errorCode finalSize : Nat) :
    Connection × Option String :=
  andThen (c.enforceStreamLimit streamId) fun c =>
    if (c.touchStreamFlow streamId).finalSizeConflicts streamId finalSize then
      (c.touchStreamFlow streamId,
        some "RESET_STREAM final size conflicts with received data (FINAL_SIZE_ERROR)")
    else
      andThen (((c.touchStreamFlow streamId).recordReset streamId errorCode finalSize)
        |>.accountFinalSize streamId finalSize) fun c => (c.creditDiscarded streamId finalSize, none)

def retireUnlessFailed (result : Connection × Option String) : Connection × Option String :=
  andThen result fun c => (c.retireAcknowledgedPeerStreams, none)

def processResetStreamFrame (c : Connection) (streamId errorCode finalSize : Nat) :
    Connection × Option String :=
  if c.isRetiredPeerBidirectional streamId then (c, none)
  else retireUnlessFailed (c.receiveReset streamId errorCode finalSize)

/-- A reset that takes effect once `reliableSize` bytes are consumed: at once for zero. -/
def scheduleReset (c : Connection) (streamId errorCode finalSize reliableSize : Nat) : Connection :=
  if reliableSize = 0 then
    creditDiscarded { c with
      receive.streamFinalSize := c.receive.streamFinalSize.insert streamId finalSize
      receive.resetStreams := c.receive.resetStreams.insert streamId errorCode
      receive.pendingReliableResets := c.receive.pendingReliableResets.erase streamId }
      streamId finalSize
  else { c with
    receive.streamFinalSize := c.receive.streamFinalSize.insert streamId finalSize
    receive.pendingReliableResets := c.receive.pendingReliableResets.insert streamId
      ⟨errorCode, finalSize, reliableSize⟩ }

/-- `processResetStreamAtFrame_` up to the retirement it attempts. -/
def receiveResetAt (c : Connection) (streamId errorCode finalSize reliableSize : Nat) :
    Connection × Option String :=
  andThen (c.enforceStreamLimit streamId) fun c =>
    if (c.touchStreamFlow streamId).finalSizeConflicts streamId finalSize then
      (c.touchStreamFlow streamId,
        some "RESET_STREAM_AT final size conflicts with received data (FINAL_SIZE_ERROR)")
    else
      andThen ((c.touchStreamFlow streamId).accountFinalSize streamId finalSize) fun c =>
        (c.scheduleReset streamId errorCode finalSize reliableSize, none)

def processResetStreamAtFrame (c : Connection) (streamId errorCode finalSize reliableSize : Nat) :
    Connection × Option String :=
  if !c.setup.localParams.resetStreamAt then
    (c, some "Peer sent RESET_STREAM_AT without negotiation")
  else if finalSize < reliableSize then
    (c, some "RESET_STREAM_AT reliable size exceeds final size (FRAME_ENCODING_ERROR)")
  else if c.isRetiredPeerBidirectional streamId then (c, none)
  else retireUnlessFailed (c.receiveResetAt streamId errorCode finalSize reliableSize)

/-- The stream a frame is reassembled in, opened when the frame is its first. -/
def reassemblyStream (c : Connection) (streamId : Nat) : Stream :=
  (c.receive.streams.find? streamId).getD
    (.empty (min (c.localStreamWindow streamId) c.setup.limits.maxStreamReassemblyBytes)
      c.setup.limits.maxStreamReassemblyFragments)

/-- Whether a STREAM frame contradicts the final size already established. -/
def violatesFinalSize (c : Connection) (streamId stop : Nat) (fin : Bool) : Bool :=
  match c.receive.streamFinalSize.find? streamId with
  | some finalSize => decide (finalSize < stop) || (fin && stop ≠ finalSize)
  | none => false

def establishFinalSize (c : Connection) (streamId stop : Nat) (fin : Bool) : Connection :=
  if fin then { c with receive.streamFinalSize := c.receive.streamFinalSize.insert streamId stop }
  else c

def reassemble (c : Connection) (streamId offset : Nat) (data : Bytes) (fin : Bool) :
    Connection × Option String :=
  match (c.reassemblyStream streamId).receive offset data fin with
  | .error message =>
    -- the stream map has created the stream by now
    ({ c with
      receive.streams := c.receive.streams.insert streamId (c.reassemblyStream streamId) },
      some message)
  | .ok received => ({ c with receive.streams := c.receive.streams.insert streamId received }, none)

def processStreamFrame (c : Connection) (streamId offset : Nat) (data : Bytes) (fin : Bool) :
    Connection × Option String :=
  if c.isRetiredPeerBidirectional streamId then (c, none)
  else andThen (c.enforceStreamLimit streamId) fun c =>
    if c.violatesFinalSize streamId (offset + data.length) fin then
      (c, some "STREAM data conflicts with established final size (FINAL_SIZE_ERROR)")
    else
      andThen ((c.establishFinalSize streamId (offset + data.length) fin)
        |>.accountBytes streamId offset data.length) fun c => c.reassemble streamId offset data fin

def readContiguous (c : Connection) (streamId : Nat) : Connection × Bytes :=
  match c.receive.streams.find? streamId with
  | some stream =>
    ({ c with receive.streams := c.receive.streams.insert streamId stream.readContiguous.1 },
      stream.readContiguous.2)
  | none => (c, [])

def creditRead (c : Connection) (streamId bytes : Nat) : Connection :=
  if bytes = 0 then c else c.creditFlowControl streamId bytes

/-- A reliable reset takes effect once its prefix is consumed. -/
def applyReliableReset (c : Connection) (streamId : Nat) : Connection :=
  match c.receive.pendingReliableResets.find? streamId, c.receive.streams.find? streamId with
  | some pending, some stream =>
    if pending.reliableSize ≤ stream.readOffset then
      (creditDiscarded (touchStreamFlow { c with
        receive.resetStreams := c.receive.resetStreams.insert streamId pending.errorCode
        receive.pendingReliableResets := c.receive.pendingReliableResets.erase streamId } streamId)
        streamId pending.finalSize)
    else c
  | _, _ => c

/-- Reads a stream up to the retirement it attempts. -/
def consumeStream (c : Connection) (streamId : Nat) : Connection × Bytes :=
  (((c.readContiguous streamId).1.creditRead streamId (c.readContiguous streamId).2.length)
    |>.applyReliableReset streamId, (c.readContiguous streamId).2)

def readStream (c : Connection) (streamId : Nat) : Connection × Bytes :=
  ((c.consumeStream streamId).1.retireAcknowledgedPeerStreams, (c.consumeStream streamId).2)

/-- Marks the application's half as released, before retirement is attempted. -/
def releasePending (c : Connection) (streamId : Nat) : Connection :=
  c.setSendStream streamId { c.sendStream streamId with peerCreditPending := true }

def releasePeerBidirectionalStream (c : Connection) (streamId : Nat) :
    Connection × Option String :=
  if !c.isPeerInitiatedBidirectional streamId then
    (c, some "Only peer-initiated bidirectional streams can be released")
  else match c.sendStreams.find? streamId with
  | none => (c, some "QUIC stream cannot be released before its application send side finishes")
  | some stream =>
    if !stream.finQueued && !stream.resetQueued then
      (c, some "QUIC stream cannot be released before its application send side finishes")
    else if stream.peerCreditPending then (c, none)
    else ((c.releasePending streamId).retireAcknowledgedPeerStreams, none)

def adoptPeerConnectionIdIfRetired (c : Connection) (sequenceNumber retirePriorTo : Nat)
    (connectionId : Bytes) : Connection :=
  if retirePriorTo ≤ c.driver.connectionIds.currentPeerSequence ∨ 20 < connectionId.length then c
  else { c with
    driver.connectionIds.peerConnectionId := connectionId
    driver.connectionIds.currentPeerSequence := sequenceNumber }

def retirePeerConnectionIds (c : Connection) (retirePriorTo : Nat) : Connection :=
  let retired := c.driver.connectionIds.peerIssued.keys.filter (· < retirePriorTo)
  enqueueAll { c with
    driver.connectionIds.peerIssued :=
      retired.foldl SortedMap.erase c.driver.connectionIds.peerIssued
    driver.connectionIds.peerStatelessResetTokens :=
      retired.foldl SortedMap.erase c.driver.connectionIds.peerStatelessResetTokens }
    .application (retired.map .retireConnectionId)

def processNewConnectionId (c : Connection) (sequenceNumber retirePriorTo : Nat)
    (connectionId token : Bytes) : Connection × Option String :=
  if connectionId.isEmpty ∨ sequenceNumber < retirePriorTo then
    (c, some "Invalid NEW_CONNECTION_ID frame")
  else
    let c := c.retirePeerConnectionIds retirePriorTo
    match c.driver.connectionIds.peerIssued.find? sequenceNumber with
    | some known =>
      if known ≠ connectionId then
        (c, some "NEW_CONNECTION_ID sequence changed its connection ID")
      else if (c.driver.connectionIds.peerStatelessResetTokens.find? sequenceNumber).any
          (· ≠ token) then
        (c, some "NEW_CONNECTION_ID sequence changed its reset token")
      else
        (adoptPeerConnectionIdIfRetired { c with
          driver.connectionIds.peerStatelessResetTokens :=
            c.driver.connectionIds.peerStatelessResetTokens.insert sequenceNumber token }
          sequenceNumber retirePriorTo connectionId, none)
    | none =>
      if c.setup.localParams.activeConnectionIdLimit ≤
          c.driver.connectionIds.peerIssued.entries.length then
        (c, some "Peer exceeded active_connection_id_limit")
      else
        (adoptPeerConnectionIdIfRetired { c with
          driver.connectionIds.peerIssued :=
            c.driver.connectionIds.peerIssued.insert sequenceNumber connectionId
          driver.connectionIds.peerStatelessResetTokens :=
            c.driver.connectionIds.peerStatelessResetTokens.insert sequenceNumber token }
          sequenceNumber retirePriorTo connectionId, none)

def issueNewConnectionId (c : Connection) (connectionId token : Bytes) : Connection :=
  let sequence := c.driver.connectionIds.nextLocalSequence
  enqueue { c with
    driver.connectionIds.nextLocalSequence := sequence + 1
    driver.connectionIds.issued := c.driver.connectionIds.issued.insert sequence connectionId }
    .application (.newConnectionId sequence 0 connectionId token)

def processDatagram (c : Connection) (data : Bytes) : Connection × Option String :=
  let frameSize := 1 + varIntSize data.length + data.length
  if c.setup.localParams.maxDatagramFrameSize = 0 ∨
      c.setup.localParams.maxDatagramFrameSize < frameSize then
    (c, some "Peer sent an unnegotiated or oversized QUIC DATAGRAM")
  else
    let countFull := 0 < c.setup.limits.maxReceivedDatagrams ∧
      c.setup.limits.maxReceivedDatagrams ≤ c.driver.datagrams.received.length
    let bytesFull := 0 < c.setup.limits.maxReceivedDatagramBytes ∧
      c.setup.limits.maxReceivedDatagramBytes < c.driver.datagrams.receivedBytes + data.length
    if countFull ∨ bytesFull then (c, none)
    else ({ c with
      driver.datagrams.received := c.driver.datagrams.received ++ [data]
      driver.datagrams.receivedBytes := c.driver.datagrams.receivedBytes + data.length }, none)

def takeDatagram (c : Connection) : Connection × Bytes :=
  match c.driver.datagrams.received with
  | [] => (c, [])
  | data :: rest =>
    ({ c with
      driver.datagrams.received := rest
      driver.datagrams.receivedBytes := c.driver.datagrams.receivedBytes - data.length }, data)

/-- The peer's limit for one stream, raised by MAX_STREAM_DATA. -/
def processMaxStreamData (c : Connection) (streamId maximum : Nat) : Connection × Option String :=
  if c.isRetiredPeerBidirectional streamId then (c, none)
  else match c.validatePeerSendControlStream streamId with
  | some message => (c, some message)
  | none =>
    ({ c with
      receive.peerStreamMaxData := c.receive.peerStreamMaxData.insert streamId
        (max ((c.receive.peerStreamMaxData.find? streamId).getD 0) maximum) }, none)

def processStopSending (c : Connection) (streamId errorCode : Nat) : Connection × Option String :=
  if c.isRetiredPeerBidirectional streamId then (c, none)
  else match c.validatePeerSendControlStream streamId with
  | some message => (c, some message)
  | none => c.resetStream streamId errorCode

/-- Where a PATH_RESPONSE to a challenge on the active path is queued. -/
def levelForPathResponse (c : Connection) (level : Level) : Level :=
  if c.app.txKeys.isSome then .application else level

def setHandshakeConfirmed (c : Connection) (confirmed : Bool) : Connection :=
  { c with handshakeConfirmed := confirmed }

/-- One frame of an authenticated packet. CRYPTO data and NEW_TOKEN go to the handshake
driver and touch nothing here. -/
def processFrame (c : Connection) (level : Level) (mode : ReceiveMode) (clock : Clock)
    (frame : Frame) : Connection × Option String :=
  match frame with
  | .padding _ | .ping | .crypto .. | .newToken _ | .dataBlocked _ | .streamDataBlocked ..
  | .streamsBlocked .. => (c, none)
  | .ack largest _ firstAckRange ranges _ =>
    c.processAckFrame level clock largest firstAckRange ranges
  | .stream streamId offset data fin => c.processStreamFrame streamId offset data fin
  | .connectionClose _ errorCode _ reason =>
    (armDrainTimer { c with
      state := .draining
      driver.closing.errorCode := errorCode
      driver.closing.reason := reason } clock, none)
  | .datagram data => c.processDatagram data
  | .pathChallenge data =>
    if mode = .active then
      (c.enqueue (c.levelForPathResponse level) (.pathResponse data), none)
    else (c, none)
  | .pathResponse data =>
    if mode = .active then (c.processPathResponse data, none) else (c, none)
  | .maxData maximum =>
    ({ c with connectionFlow.peerMaxData := max c.connectionFlow.peerMaxData maximum }, none)
  | .maxStreamData streamId maximum => c.processMaxStreamData streamId maximum
  | .maxStreams bidirectional maximum =>
    if bidirectional then
      ({ c with
        streamLimits.peerMaxStreamsBidi := max c.streamLimits.peerMaxStreamsBidi maximum }, none)
    else
      ({ c with
        streamLimits.peerMaxStreamsUni := max c.streamLimits.peerMaxStreamsUni maximum }, none)
  | .resetStream streamId errorCode finalSize =>
    c.processResetStreamFrame streamId errorCode finalSize
  | .resetStreamAt streamId errorCode finalSize reliableSize =>
    c.processResetStreamAtFrame streamId errorCode finalSize reliableSize
  | .stopSending streamId errorCode => c.processStopSending streamId errorCode
  | .newConnectionId sequenceNumber retirePriorTo connectionId token =>
    c.processNewConnectionId sequenceNumber retirePriorTo connectionId token
  | .retireConnectionId sequenceNumber =>
    if c.driver.connectionIds.nextLocalSequence ≤ sequenceNumber then
      (c, some "Peer retired a connection ID that was never issued")
    else
      ({ c with
        driver.connectionIds.issued := c.driver.connectionIds.issued.erase sequenceNumber }, none)
  | .handshakeDone =>
    if c.setup.role = .client then ((c.setHandshakeConfirmed true).dropLevelKeys .handshake, none)
    else (c, none)

/-- The frames of a packet, up to the first one that is refused. -/
def processFrames (level : Level) (mode : ReceiveMode) (clock : Clock) :
    List Frame → Connection → Connection × Option String
  | [], c => (c, none)
  | frame :: rest, c =>
    match c.processFrame level mode clock frame with
    | (c, none) => processFrames level mode clock rest c
    | (c, some message) => (c, some message)

/-- Records an accepted packet and schedules its acknowledgement. -/
def acceptPacket (c : Connection) (level : Level) (packetNumber : Nat) (ackEliciting : Bool)
    (nowMs : Nat) : Connection :=
  let space := c.spaces level
  let outOfOrder := match space.largestReceivedPn with
    | some largest => decide (packetNumber ≠ largest + 1)
    | none => false
  let isLargest := match space.largestReceivedPn with
    | some largest => decide (largest < packetNumber)
    | none => true
  let sinceAck := space.ackElicitingSinceAck + 1
  let immediate := level ≠ .application || 2 ≤ sinceAck || outOfOrder
  c.setSpace level { space with
    ackTracker := space.ackTracker.recordReceivedPacket packetNumber ackEliciting
    largestReceivedPn := if isLargest then some packetNumber else space.largestReceivedPn
    largestReceivedTimeMs := if isLargest then nowMs else space.largestReceivedTimeMs
    ackElicitingSinceAck := if ackEliciting then sinceAck else space.ackElicitingSinceAck
    ackDeadlineMs := if ackEliciting then
        match space.ackDeadlineMs with
        | none => some (if immediate then nowMs else nowMs + kLocalMaxAckDelayMs)
        | some deadline => some (if immediate then nowMs else deadline)
      else space.ackDeadlineMs }

def packetNumberAlreadyConsumed (c : Connection) (level : Level) (packetNumber : Nat) : Bool :=
  (c.spaces level).ackTracker.containsReceivedPacket packetNumber ||
    match (c.spaces level).largestReceivedPn with
    | some largest =>
      decide (packetNumber ≤ largest) && decide (kMaxTrackedPackets ≤ largest - packetNumber)
    | none => false

/-- What becomes of an arriving packet before its frames are looked at. -/
inductive Admission where
  | discarded (c : Connection)
  | refused (c : Connection) (message : String)
  | accepted (c : Connection)

/-- A packet that opened and is no replay. Inspection leaves it unacknowledged. -/
def admitDecoded (c : Connection) (mode : ReceiveMode) (nowMs : Nat) (packet : Packet) :
    Admission :=
  if mode = .inspectPath then .discarded c
  else .accepted (c.acceptPacket packet.level packet.packetNumber
    (packet.frames.any Frame.isAckEliciting) nowMs)

/-- Which key generation opens a 1-RTT packet: the current one, the next one on a flipped
Key Phase bit once the handshake is confirmed, or the previous one. -/
inductive Opened where
  | current
  | next
  | previous
  deriving DecidableEq

def openShortHeader (c : Connection) (packet : Packet) : Option Opened :=
  if packet.keys = c.app.rxKeys then some .current
  else if c.handshakeConfirmed ∧ c.keys.nextKeys.any (fun next => packet.keys = some next.1) ∧
      packet.keyPhase ≠ c.keys.keyPhase then
    some .next
  else if packet.keys = c.keys.prevRxKeys ∧ c.keys.prevRxKeys.isSome ∧
      packet.keyPhase ≠ c.keys.keyPhase then
    some .previous
  else none

def admitShortHeader (c : Connection) (mode : ReceiveMode) (nowMs : Nat) (packet : Packet) :
    Admission :=
  if c.app.rxKeys.isNone then .discarded c
  else match c.openShortHeader packet with
  | none => .discarded c
  | some opened =>
    if c.packetNumberAlreadyConsumed .application packet.packetNumber then .discarded c
    else match if opened = .next then c.advanceKeyPhase else (c, none) with
      | (c, some message) => .refused c message
      | (c, none) => c.admitDecoded mode nowMs packet

/-- Long-header packets: protected ones need the level's keys, and without Initial keys
plaintext Initial packets are read as they are. -/
def admitLongHeader (c : Connection) (mode : ReceiveMode) (nowMs : Nat) (packet : Packet) :
    Admission :=
  match (c.spaces packet.level).rxKeys with
  | some keys =>
    if packet.keys ≠ some keys then .discarded c
    else if c.packetNumberAlreadyConsumed packet.level packet.packetNumber then .discarded c
    else c.admitDecoded mode nowMs packet
  | none =>
    if packet.level = .initial ∧ packet.keys.isNone then c.admitDecoded mode nowMs packet
    else .discarded c

def admitPacket (c : Connection) (mode : ReceiveMode) (nowMs : Nat) (packet : Packet) : Admission :=
  if packet.level = .application then c.admitShortHeader mode nowMs packet
  else c.admitLongHeader mode nowMs packet

def receivePacket (c : Connection) (mode : ReceiveMode) (clock : Clock) (packet : Packet) :
    Connection × Option String :=
  match c.admitPacket mode clock.nowMs packet with
  | .discarded c => (c, none)
  | .refused c message => (c, some message)
  | .accepted c => processFrames packet.level mode clock packet.frames c

/-- Bytes of an authenticated datagram count for the path's budget and the idle timer. -/
def creditDatagram (c : Connection) (bytes nowMs : Nat) : Connection :=
  { c with
    driver.path.bytesReceived := if c.driver.path.validated then c.driver.path.bytesReceived
      else c.driver.path.bytesReceived + bytes
    driver.timers.lastNetworkActivityMs := some nowMs }

def statelessReset (c : Connection) (clock : Clock) : Connection :=
  armDrainTimer { c with state := .draining, driver.closing.errorCode := 0 } clock

/-- The frames a probe sends again: those of the oldest packet that has any left. -/
def probeFrames (c : Connection) : List SentRecord → List Frame
  | [] => [.ping]
  | record :: rest =>
    let frames := record.retransmittable.filter c.shouldRetransmitFrame
    if frames.isEmpty then probeFrames c rest else frames

def requeueOldestUnacked (c : Connection) (level : Level) : Connection :=
  c.enqueueAll level (c.probeFrames (c.spaces level).sentPackets.values)

def armProbe (c : Connection) (level : Level) : Connection :=
  { c.setSpace level { c.spaces level with
      probesPending := if (c.spaces level).probesPending < 2 then
        (c.spaces level).probesPending + 1 else (c.spaces level).probesPending } with
    driver.timers.ptoCount := c.driver.timers.ptoCount + 1 }

def firePto (clock : Clock) (c : Connection) (level : Level) : Connection :=
  match c.spacePtoDeadline clock level with
  | none => c
  | some deadline =>
    if deadline ≤ clock.nowMs then (c.requeueOldestUnacked level).armProbe level else c

def idleExpired (c : Connection) (nowMs : Nat) : Bool :=
  decide (0 < c.driver.timers.effectiveIdleTimeoutMs) && c.state = .opened &&
    match c.driver.timers.lastNetworkActivityMs with
    | some last => decide (last + c.driver.timers.effectiveIdleTimeoutMs ≤ nowMs)
    | none => false

def onTimeout (c : Connection) (clock : Clock) : Connection :=
  if c.driver.timers.drainDeadlineMs.any fun deadline => decide (deadline ≤ clock.nowMs) then
    { c with state := .closed, driver.timers.drainDeadlineMs := none }
  else if c.idleExpired clock.nowMs then { c with state := .closed }
  else [Level.initial, .handshake, .application].foldl (firePto clock) c

def close (c : Connection) (errorCode : Nat) (reason : Bytes) (isApplication : Bool) : Connection :=
  if c.state ≠ .opened then c
  else { c with
    state := .closing
    driver.closing := { c.driver.closing with queued := true, errorCode, reason, isApplication } }

end Connection
end SwStack.Quic
