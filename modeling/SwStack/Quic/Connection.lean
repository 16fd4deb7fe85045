import SwStack.Quic.Stream
import SwStack.Quic.Recovery
import SwStack.Quic.SendStream

/-! The state of one connection endpoint, and the operations its send and receive paths
share: stream tables, flow-control credit and the retirement of peer streams. -/
namespace SwStack.Quic

open SwStack.Lib

inductive Role where
  | client
  | server
  deriving DecidableEq

inductive State where
  | opened
  | closing
  | draining
  | closed
  deriving DecidableEq

inductive DatagramQueueOverflowPolicy where
  | rejectNewest
  | dropOldest
  deriving DecidableEq

structure TransportParameters where
  maxIdleTimeoutMs : Nat
  maxUdpPayloadSize : Nat
  initialMaxData : Nat
  initialMaxStreamDataBidiLocal : Nat
  initialMaxStreamDataBidiRemote : Nat
  initialMaxStreamDataUni : Nat
  initialMaxStreamsBidi : Nat
  initialMaxStreamsUni : Nat
  activeConnectionIdLimit : Nat
  maxDatagramFrameSize : Nat
  resetStreamAt : Bool
  deriving DecidableEq

/-- The parameters a connection starts with. -/
def TransportParameters.default : TransportParameters :=
  { maxIdleTimeoutMs := 0, maxUdpPayloadSize := maximumUdpPayloadBytes
    initialMaxData := 262144, initialMaxStreamDataBidiLocal := 262144
    initialMaxStreamDataBidiRemote := 262144, initialMaxStreamDataUni := 262144
    initialMaxStreamsBidi := 100, initialMaxStreamsUni := 100, activeConnectionIdLimit := 2
    maxDatagramFrameSize := 1400, resetStreamAt := true }

/-- Packet protection is ideal: keys are known by their generation, and the next
generation can be derived when they carry a traffic secret. -/
structure TrafficKeys where
  secret : Bool
  generation : Nat
  deriving DecidableEq

def deriveNextGenerationKeys (current : TrafficKeys) : Option TrafficKeys :=
  if current.secret then some { current with generation := current.generation + 1 } else none

structure SentRecord where
  retransmittable : List Frame
  sentBytes : Nat
  sentTimeMs : Nat
  ackEliciting : Bool
  deriving DecidableEq

structure Space where
  ackTracker : AckTracker
  loss : LossRecovery
  rxKeys : Option TrafficKeys
  txKeys : Option TrafficKeys
  largestReceivedPn : Option Nat
  nextTxPn : Nat
  pendingFrames : List Frame
  sentPackets : SortedMap Nat SentRecord
  ackDeadlineMs : Option Nat
  lastAckElicitingSentMs : Nat
  hasAckElicitingInFlight : Bool
  largestReceivedTimeMs : Nat
  probesPending : Nat
  ackElicitingSinceAck : Nat
  deriving DecidableEq

def Space.empty (nextTxPn : Nat) : Space :=
  { ackTracker := .empty, loss := .empty, rxKeys := none, txKeys := none
    largestReceivedPn := none, nextTxPn, pendingFrames := [], sentPackets := ∅
    ackDeadlineMs := none, lastAckElicitingSentMs := 0, hasAckElicitingInFlight := false
    largestReceivedTimeMs := 0, probesPending := 0, ackElicitingSinceAck := 0 }

/-- The 1-RTT keys besides the current ones. -/
structure KeyUpdate where
  keyPhase : Bool
  nextKeys : Option (TrafficKeys × TrafficKeys)
  prevRxKeys : Option TrafficKeys
  currentPhaseTxAcked : Bool
  currentPhaseFirstTxPn : Nat
  keyUpdateCount : Nat
  deriving DecidableEq

structure PendingReliableReset where
  errorCode : Nat
  finalSize : Nat
  reliableSize : Nat
  deriving DecidableEq

/-- The frames waiting to be sent are kept as their payloads: all are DATAGRAM frames. -/
structure Datagrams where
  pendingFrames : List Bytes
  pendingFrameBytes : Nat
  received : List Bytes
  receivedBytes : Nat
  deriving DecidableEq

structure ConnectionIds where
  localConnectionId : Bytes
  peerConnectionId : Bytes
  initialToken : Bytes
  currentPeerSequence : Nat
  peerIssued : SortedMap Nat Bytes
  peerStatelessResetTokens : SortedMap Nat Bytes
  issued : SortedMap Nat Bytes
  nextLocalSequence : Nat
  deriving DecidableEq

structure Path where
  validated : Bool
  awaitingResponse : Bool
  resetCcOnValidation : Bool
  challengeData : Bytes
  bytesReceived : Nat
  bytesSent : Nat
  deriving DecidableEq

structure Timers where
  effectiveIdleTimeoutMs : Nat
  lastNetworkActivityMs : Option Nat
  drainDeadlineMs : Option Nat
  ptoCount : Nat
  deriving DecidableEq

structure Closing where
  queued : Bool
  sent : Bool
  errorCode : Nat
  reason : Bytes
  isApplication : Bool
  deriving DecidableEq

structure Pacing where
  ratePerMillisecond : Nat
  maximumBurst : Nat
  lastRefillMs : Nat
  tokens : Nat
  deriving DecidableEq

/-- Bounds the driver sets before any traffic; zero means none where the code says so. -/
structure Limits where
  maxStreamReassemblyBytes : Nat
  maxStreamReassemblyFragments : Nat
  maxBufferedStreamSendBytes : Nat
  maxDatagramsPerBuild : Nat
  maxPendingDatagramFrames : Nat
  maxPendingDatagramBytes : Nat
  datagramQueueOverflowPolicy : DatagramQueueOverflowPolicy
  maxReceivedDatagrams : Nat
  maxReceivedDatagramBytes : Nat
  deriving DecidableEq

def Limits.default : Limits :=
  { maxStreamReassemblyBytes := 1024 * 1024, maxStreamReassemblyFragments := 1024
    maxBufferedStreamSendBytes := 16 * 1024 * 1024, maxDatagramsPerBuild := 0
    maxPendingDatagramFrames := 0, maxPendingDatagramBytes := 0
    datagramQueueOverflowPolicy := .rejectNewest
    maxReceivedDatagrams := 1024, maxReceivedDatagramBytes := 4 * 1024 * 1024 }

/-- What the driver fixes when it sets a connection up. -/
structure Setup where
  role : Role
  localParams : TransportParameters
  peerParams : Option TransportParameters
  limits : Limits
  maximumUdpPayloadSize : Nat
  pacing : Pacing
  plaintextInitialTx : Bool
  localConnectionId : Bytes
  peerConnectionId : Bytes
  initialToken : Bytes
  nextTxPn : Level → Nat

/-- Default parameters on both sides and no pacing. -/
def Setup.default (role : Role) : Setup :=
  { role, localParams := .default, peerParams := some .default, limits := .default
    maximumUdpPayloadSize := 1450
    pacing := { ratePerMillisecond := 0, maximumBurst := 0, lastRefillMs := 0, tokens := 0 }
    plaintextInitialTx := false, localConnectionId := [1], peerConnectionId := [2]
    initialToken := [], nextTxPn := fun _ => 0 }

/-- What only the driver of the datagrams works with. -/
structure Driver where
  maximumUdpPayloadSize : Nat
  connectionIds : ConnectionIds
  timers : Timers
  closing : Closing
  pacing : Pacing
  path : Path
  datagrams : Datagrams

/-- The tables with one entry for each stream, besides its send state. -/
structure Tables where
  streams : SortedMap Nat Stream
  streamFlow : SortedMap Nat StreamFlowControl
  peerStreamMaxData : SortedMap Nat Nat
  resetStreams : SortedMap Nat Nat
  pendingReliableResets : SortedMap Nat PendingReliableReset
  streamFinalSize : SortedMap Nat Nat

def Tables.empty : Tables :=
  { streams := ∅, streamFlow := ∅, peerStreamMaxData := ∅, resetStreams := ∅
    pendingReliableResets := ∅, streamFinalSize := ∅ }

structure StreamLimits where
  peerMaxStreamsBidi : Nat
  peerMaxStreamsUni : Nat
  localMaxStreamsBidi : Nat
  localMaxStreamsUni : Nat
  deriving DecidableEq

structure Sending where
  localOpenedStreams : SortedMap Nat Bool
  totalStreamBytesSent : Nat
  streamSchedulingCursor : Nat
  bufferedStreamSendBytes : Nat
  deriving DecidableEq

structure Connection where
  setup : Setup
  state : State
  handshakeConfirmed : Bool
  driver : Driver
  keys : KeyUpdate
  spaces : Level → Space
  congestion : CongestionControl
  connectionFlow : ConnectionFlowControl
  streamLimits : StreamLimits
  receive : Tables
  sending : Sending
  sendStreams : SortedMap Nat SendStream
  retiredPeerBidiRanges : RangeMap

def combineIdleTimeouts (local_ peer : Nat) : Nat :=
  if local_ = 0 then peer else if peer = 0 then local_ else min local_ peer

def Driver.start (setup : Setup) : Driver :=
  { maximumUdpPayloadSize := setup.maximumUdpPayloadSize
    connectionIds := {
      localConnectionId := setup.localConnectionId, peerConnectionId := setup.peerConnectionId
      initialToken := setup.initialToken, currentPeerSequence := 0
      peerIssued := if setup.peerConnectionId.isEmpty then ∅
        else SortedMap.insert ∅ 0 setup.peerConnectionId
      peerStatelessResetTokens := ∅, issued := ∅, nextLocalSequence := 1 }
    timers := {
      effectiveIdleTimeoutMs := match setup.peerParams with
        | some peer => combineIdleTimeouts setup.localParams.maxIdleTimeoutMs peer.maxIdleTimeoutMs
        | none => 0
      lastNetworkActivityMs := none, drainDeadlineMs := none, ptoCount := 0 }
    closing := {
      queued := false, sent := false, errorCode := 0, reason := [], isApplication := false }
    pacing := setup.pacing
    path := {
      validated := true, awaitingResponse := false, resetCcOnValidation := false
      challengeData := [], bytesReceived := 0, bytesSent := 0 }
    datagrams := {
      pendingFrames := [], pendingFrameBytes := 0, received := [], receivedBytes := 0 } }

namespace Connection

/-- A connection whose parameters are applied and that has neither keys nor traffic. -/
def start (setup : Setup) : Connection :=
  { setup, state := .opened, handshakeConfirmed := false, driver := .start setup
    keys := {
      keyPhase := false, nextKeys := none, prevRxKeys := none, currentPhaseTxAcked := false
      currentPhaseFirstTxPn := 0, keyUpdateCount := 0 }
    spaces := fun level => Space.empty (setup.nextTxPn level)
    congestion := .initial
    connectionFlow := .open_ setup.localParams.initialMaxData
      (match setup.peerParams with | some peer => peer.initialMaxData | none => 0)
    streamLimits := {
      peerMaxStreamsBidi := match setup.peerParams with
        | some peer => peer.initialMaxStreamsBidi
        | none => 0
      peerMaxStreamsUni := match setup.peerParams with
        | some peer => peer.initialMaxStreamsUni
        | none => 0
      localMaxStreamsBidi := setup.localParams.initialMaxStreamsBidi
      localMaxStreamsUni := setup.localParams.initialMaxStreamsUni }
    receive := .empty
    sending := {
      localOpenedStreams := ∅, totalStreamBytesSent := 0, streamSchedulingCursor := 0
      bufferedStreamSendBytes := 0 }
    sendStreams := ∅, retiredPeerBidiRanges := ∅ }

def setSpace (c : Connection) (level : Level) (space : Space) : Connection :=
  { c with spaces := Function.update c.spaces level space }

def app (c : Connection) : Space := c.spaces .application

def enqueue (c : Connection) (level : Level) (frame : Frame) : Connection :=
  c.setSpace level { c.spaces level with
    pendingFrames := (c.spaces level).pendingFrames ++ [frame] }

def filterPending (c : Connection) (keep : Frame → Bool) : Connection :=
  c.setSpace .application { c.app with pendingFrames := c.app.pendingFrames.filter keep }

def levelCanSend (c : Connection) (level : Level) : Bool :=
  (c.spaces level).txKeys.isSome || (level = .initial && c.setup.plaintextInitialTx)

def hasPendingFrames (c : Connection) (level : Level) : Bool :=
  !(c.spaces level).pendingFrames.isEmpty ||
    (level = .application && !c.driver.datagrams.pendingFrames.isEmpty)

/-- The deadline of the probe timer, armed while ack-eliciting data is in flight. -/
def spacePtoDeadline (c : Connection) (clock : Clock) (level : Level) : Option Nat :=
  let space := c.spaces level
  if !space.hasAckElicitingInFlight || space.sentPackets.isEmpty then none
  else some (space.lastAckElicitingSentMs + clock.ptoMs level * 2 ^ min c.driver.timers.ptoCount 16)

def armDrainTimer (c : Connection) (clock : Clock) : Connection :=
  { c with driver.timers.drainDeadlineMs := some (clock.nowMs + 3 * clock.ptoMs .application) }

def locallyInitiated (c : Connection) (streamId : Nat) : Bool :=
  match c.setup.role with
  | .client => streamId % 2 = 0
  | .server => streamId % 2 = 1

end Connection

def unidirectional (streamId : Nat) : Bool := streamId / 2 % 2 = 1

def streamNumber (streamId : Nat) : Nat := streamId / 4

namespace StreamLimits

/-- How many streams of the kind of `streamId` this endpoint may open. -/
def peerMaxStreams (limits : StreamLimits) (streamId : Nat) : Nat :=
  if unidirectional streamId then limits.peerMaxStreamsUni else limits.peerMaxStreamsBidi

/-- How many the peer may open. -/
def localMaxStreams (limits : StreamLimits) (streamId : Nat) : Nat :=
  if unidirectional streamId then limits.localMaxStreamsUni else limits.localMaxStreamsBidi

end StreamLimits

namespace Connection

def isPeerInitiatedBidirectional (c : Connection) (streamId : Nat) : Bool :=
  !c.locallyInitiated streamId && !unidirectional streamId

def hasStream (c : Connection) (streamId : Nat) : Bool := c.receive.streams.contains streamId

def sendStream (c : Connection) (streamId : Nat) : SendStream :=
  (c.sendStreams.find? streamId).getD .empty

def setSendStream (c : Connection) (streamId : Nat) (stream : SendStream) : Connection :=
  { c with sendStreams := c.sendStreams.insert streamId stream }

def isRetiredPeerBidirectional (c : Connection) (streamId : Nat) : Bool :=
  c.isPeerInitiatedBidirectional streamId &&
    match c.retiredPeerBidiRanges.floor? (streamNumber streamId) with
    | some range => decide (streamNumber streamId ≤ range.2)
    | none => false

def markRetiredPeerBidirectional (c : Connection) (streamId : Nat) : Connection :=
  { c with retiredPeerBidiRanges :=
      RangeMap.add 1 c.retiredPeerBidiRanges (streamNumber streamId) (streamNumber streamId) }

def validateSendStreamState (c : Connection) (streamId : Nat) : Connection × Option String :=
  if !c.locallyInitiated streamId then
    if unidirectional streamId then
      (c, some "Cannot send on a peer-initiated unidirectional stream")
    else if !c.hasStream streamId && !c.receive.resetStreams.contains streamId then
      (c, some "Cannot send before the peer opens its bidirectional stream")
    else (c, none)
  else if c.setup.peerParams.isSome ∧ c.streamLimits.peerMaxStreams streamId ≤ streamNumber streamId
  then
    (c, some "Peer stream limit reached")
  else
    ({ c with sending.localOpenedStreams := c.sending.localOpenedStreams.insert streamId true }, none)

def validatePeerSendControlStream (c : Connection) (streamId : Nat) : Option String :=
  if c.locallyInitiated streamId then
    if c.sending.localOpenedStreams.contains streamId then none
    else some "Peer referenced a locally initiated stream that is not open"
  else if unidirectional streamId ||
      (!c.hasStream streamId && !c.receive.resetStreams.contains streamId) then
    some "Peer referenced a stream without a local send side"
  else none

def enforceStreamLimit (c : Connection) (streamId : Nat) : Connection × Option String :=
  if c.hasStream streamId then (c, none)
  else if c.locallyInitiated streamId then
    if c.sending.localOpenedStreams.contains streamId then (c, none)
    else (c, some "Peer sent data on a locally initiated stream that was never opened")
  else if c.streamLimits.localMaxStreams streamId ≤ streamNumber streamId then
    ({ c with driver.closing.errorCode := 4 },
      some "Peer exceeded the advertised stream limit (STREAM_LIMIT_ERROR)")
  else (c, none)

def localStreamWindow (c : Connection) (streamId : Nat) : Nat :=
  if unidirectional streamId then c.setup.localParams.initialMaxStreamDataUni
  else if c.locallyInitiated streamId then c.setup.localParams.initialMaxStreamDataBidiLocal
  else c.setup.localParams.initialMaxStreamDataBidiRemote

def peerStreamSendLimit (c : Connection) (streamId : Nat) : Nat :=
  let initial := match c.setup.peerParams with
    | some peer =>
      if unidirectional streamId then peer.initialMaxStreamDataUni
      else if c.locallyInitiated streamId then peer.initialMaxStreamDataBidiRemote
      else peer.initialMaxStreamDataBidiLocal
    | none => 0
  match c.receive.peerStreamMaxData.find? streamId with
  | some limit => max initial limit
  | none => initial

def streamFlowControl (c : Connection) (streamId : Nat) : StreamFlowControl :=
  (c.receive.streamFlow.find? streamId).getD (.open_ (c.localStreamWindow streamId))

def setStreamFlow (c : Connection) (streamId : Nat) (flow : StreamFlowControl) : Connection :=
  { c with receive.streamFlow := c.receive.streamFlow.insert streamId flow }

def advertiseStream (c : Connection) (streamId : Nat) (flow : StreamFlowControl) : Connection :=
  if flow.shouldSendMaxStreamData then
    (c.setStreamFlow streamId flow.applyMaxStreamData).enqueue .application
      (.maxStreamData streamId flow.nextMaxStreamData)
  else c.setStreamFlow streamId flow

def advertiseConnection (c : Connection) (flow : ConnectionFlowControl) : Connection :=
  if flow.shouldSendMaxData then
    enqueue { c with connectionFlow := flow.applyMaxData } .application (.maxData flow.nextMaxData)
  else { c with connectionFlow := flow }

def creditFlowControl (c : Connection) (streamId bytes : Nat) : Connection :=
  (c.advertiseStream streamId ((c.streamFlowControl streamId).consume bytes)).advertiseConnection
    (c.connectionFlow.consume bytes)

def removePendingSendFramesForStream (c : Connection) (streamId : Nat)
    (removeResetFrames : Bool) : Connection :=
  c.filterPending fun
    | .stream id .. => id ≠ streamId
    | .resetStream id .. | .resetStreamAt id .. | .stopSending id .. | .maxStreamData id .. =>
      !(removeResetFrames && id = streamId)
    | _ => true

def removePendingSendFramesAfterReliableSize (c : Connection) (streamId reliableSize : Nat) :
    Connection :=
  c.filterPending fun
    | .stream id offset .. => id ≠ streamId || offset < reliableSize
    | _ => true

def retirePeerBidirectionalState (c : Connection) (streamId : Nat) : Connection :=
  { (c.markRetiredPeerBidirectional streamId).removePendingSendFramesForStream streamId true with
    receive.streams := c.receive.streams.erase streamId
    receive.streamFlow := c.receive.streamFlow.erase streamId
    receive.peerStreamMaxData := c.receive.peerStreamMaxData.erase streamId
    receive.resetStreams := c.receive.resetStreams.erase streamId
    receive.pendingReliableResets := c.receive.pendingReliableResets.erase streamId
    receive.streamFinalSize := c.receive.streamFinalSize.erase streamId }

def receiveTerminal (c : Connection) (streamId : Nat) : Bool :=
  c.receive.resetStreams.contains streamId ||
    match c.receive.streams.find? streamId with
    | some stream => stream.isReceiveComplete
    | none => false

end Connection

def SendStream.resetTerminal (stream : SendStream) : Bool :=
  stream.resetQueued && stream.resetAcked

def SendStream.gracefulTerminal (stream : SendStream) : Bool :=
  !stream.resetQueued && stream.finQueued && stream.finAcked &&
    decide (stream.nextOffset ≤ stream.contiguousAckedOffset)

namespace Connection

/-- The test `retireAcknowledgedPeerStreams_` makes on each send stream. -/
def retires (c : Connection) (streamId : Nat) (stream : SendStream) : Bool :=
  stream.peerCreditPending && c.receiveTerminal streamId &&
    (stream.resetTerminal || stream.gracefulTerminal)

/-- Cumulative stream credit for one retired stream. -/
def grantPeerStream (c : Connection) : Connection :=
  if c.streamLimits.localMaxStreamsBidi < 2 ^ 60 then
    enqueue { c with
      streamLimits.localMaxStreamsBidi := c.streamLimits.localMaxStreamsBidi + 1 } .application
      (.maxStreams true (c.streamLimits.localMaxStreamsBidi + 1))
  else c

def retireStream (c : Connection) (streamId : Nat) : Connection :=
  grantPeerStream { c.retirePeerBidirectionalState streamId with
    sendStreams := c.sendStreams.erase streamId }

def retireAll (c : Connection) (entries : List (Nat × SendStream)) : Connection :=
  entries.foldl (fun c entry => if c.retires entry.1 entry.2 then c.retireStream entry.1 else c) c

def wrapCursor (c : Connection) : Connection :=
  { c with
    sending.streamSchedulingCursor := if c.sendStreams.isEmpty then 0
      else c.sending.streamSchedulingCursor % c.sendStreams.entries.length }

def retireAcknowledgedPeerStreams (c : Connection) : Connection :=
  (c.retireAll c.sendStreams.entries).wrapCursor

end Connection
end SwStack.Quic
