import SwStack.Quic.Connection

/-! The send path: the application's calls, staging of stream data, and the assembly of
packets under flow, congestion and amplification limits. -/
namespace SwStack.Quic

open SwStack.Lib

/-- A built packet. `keys` is absent for a plaintext Initial packet. -/
structure Packet where
  level : Level
  keys : Option TrafficKeys
  keyPhase : Bool
  packetNumber : Nat
  frames : List Frame
  size : Nat
  deriving DecidableEq

def Frame.isStream : Frame → Bool
  | .stream .. => true
  | _ => false

def kStreamChunkBytes : Nat := 1000
def kMaxStagedStreamFrames : Nat := 32
def kTagLength : Nat := 16
def kPacketNumberLength : Nat := 4
def kLocalMaxAckDelayMs : Nat := 25

/-- What `sendStreamData` leaves: the compacted buffer with the data appended. -/
def SendStream.append (stream : SendStream) (data : Bytes) (fin : Bool) : SendStream :=
  { stream.compact with buffer := stream.compact.buffer ++ data, finQueued := fin }

namespace Connection

def streamDataSize (frames : List Frame) : Nat :=
  ((frames.filter Frame.isStream).map Frame.dataSize).sum

def queuedStreamSendBytes (c : Connection) : Nat :=
  c.sending.bufferedStreamSendBytes + streamDataSize c.app.pendingFrames +
    (c.app.sentPackets.values.map fun record => streamDataSize record.retransmittable).sum

def sendStreamData (c : Connection) (streamId : Nat) (data : Bytes) (fin : Bool) :
    Connection × Option String :=
  if c.state ≠ .opened then (c, some "QUIC connection is not open for sending")
  else match c.validateSendStreamState streamId with
  | (c, some message) => (c, some message)
  | (c, none) =>
    if 0 < c.setup.limits.maxBufferedStreamSendBytes ∧
        c.setup.limits.maxBufferedStreamSendBytes < c.queuedStreamSendBytes + data.length then
      (c, some "QUIC stream send buffer is full")
    else if (c.sendStream streamId).finQueued ∨ (c.sendStream streamId).resetQueued then
      (c, some "QUIC stream already finished")
    else
      ({ c.setSendStream streamId ((c.sendStream streamId).append data fin) with
        sending.bufferedStreamSendBytes := c.sending.bufferedStreamSendBytes + data.length }, none)

/-- The send state with its unsent bytes discarded and a reset queued. -/
def abandonBuffer (c : Connection) (streamId : Nat) (stream : SendStream) : Connection :=
  { c.setSendStream streamId
      { stream with buffer := [], bufferOffset := 0, resetQueued := true, resetAcked := false } with
    sending.bufferedStreamSendBytes := c.sending.bufferedStreamSendBytes - stream.remaining }

def resetStream (c : Connection) (streamId errorCode : Nat) : Connection × Option String :=
  if c.state ≠ .opened then (c, some "QUIC connection is not open for sending")
  else match c.validateSendStreamState streamId with
  | (c, some message) => (c, some message)
  | (c, none) =>
    if (c.sendStream streamId).resetQueued then (c, none)
    else
      (((c.abandonBuffer streamId (c.sendStream streamId)).removePendingSendFramesForStream streamId
        false).enqueue .application
          (.resetStream streamId errorCode (c.sendStream streamId).nextOffset), none)

def resetStreamAt (c : Connection) (streamId errorCode reliableSize : Nat) :
    Connection × Option String :=
  if c.state ≠ .opened then (c, some "QUIC connection is not open for sending")
  else if !(c.setup.peerParams.any TransportParameters.resetStreamAt) then
    (c, some "Peer did not negotiate reset_stream_at")
  else match c.validateSendStreamState streamId with
  | (c, some message) => (c, some message)
  | (c, none) =>
    if (c.sendStream streamId).resetQueued then
      if (c.sendStream streamId).resetAt ∧
          (c.sendStream streamId).resetReliableSize = reliableSize then (c, none)
      else (c, some "QUIC stream already has a different reset queued")
    else if (c.sendStream streamId).nextOffset < reliableSize then
      -- `m_sendStreams[streamId]` has created the entry by now
      (c.setSendStream streamId (c.sendStream streamId),
        some "RESET_STREAM_AT reliable size exceeds sent stream data")
    else
      (((c.abandonBuffer streamId { c.sendStream streamId with
            resetAt := true, resetReliableSize := reliableSize })
        |>.removePendingSendFramesAfterReliableSize streamId reliableSize).enqueue .application
          (.resetStreamAt streamId errorCode (c.sendStream streamId).nextOffset reliableSize), none)

def stopReceivingStream (c : Connection) (streamId errorCode : Nat) : Connection × Option String :=
  if c.state ≠ .opened then (c, some "QUIC connection is not open for sending")
  else if c.isRetiredPeerBidirectional streamId then (c, none)
  else if c.locallyInitiated streamId ∧ unidirectional streamId then
    (c, some "Cannot stop receiving on a send-only stream")
  else if !c.locallyInitiated streamId && !c.hasStream streamId &&
      !c.receive.resetStreams.contains streamId then
    (c, some "Cannot stop receiving before the peer opens its stream")
  else (c.enqueue .application (.stopSending streamId errorCode), none)

/-- Header bytes besides the length and packet-number fields. -/
def longHeaderSize (c : Connection) (level : Level) : Nat :=
  1 + 4 + 1 + c.driver.connectionIds.peerConnectionId.length + 1 +
    c.driver.connectionIds.localConnectionId.length +
    if level = .initial then
      varIntSize c.driver.connectionIds.initialToken.length +
        c.driver.connectionIds.initialToken.length
    else 0

/-- The size of a packet around a payload, protected or in plaintext Initial mode. -/
def wireSize (c : Connection) (level : Level) (payloadSize : Nat) : Nat :=
  match level with
  | .application =>
    1 + c.driver.connectionIds.peerConnectionId.length + kPacketNumberLength + payloadSize +
      kTagLength
  | level =>
    let tag := if (c.spaces level).txKeys.isSome then kTagLength else 0
    c.longHeaderSize level + varIntSize (payloadSize + kPacketNumberLength + tag) +
      kPacketNumberLength + payloadSize + tag

def packetPayloadBudgetForWire (c : Connection) (level : Level) (wireBytes : Nat) : Nat :=
  let ids := c.driver.connectionIds
  let overhead := match level with
    | .application => 1 + ids.peerConnectionId.length + kPacketNumberLength + kTagLength
    | level =>
      1 + 4 + 1 + ids.peerConnectionId.length + 1 + ids.localConnectionId.length + 4 +
        kPacketNumberLength + kTagLength +
        if level = .initial then 4 + ids.initialToken.length else 0
  if wireBytes ≤ overhead + 64 then 64 else wireBytes - overhead

def effectiveMaximumUdpPayloadSize (c : Connection) : Nat :=
  let maximum :=
    if c.driver.maximumUdpPayloadSize = 0 ∨
        maximumUdpPayloadBytes < c.driver.maximumUdpPayloadSize then
      maximumUdpPayloadBytes
    else c.driver.maximumUdpPayloadSize
  match c.setup.peerParams with
  | some peer =>
    if minimumInitialUdpPayloadBytes ≤ peer.maxUdpPayloadSize ∧ peer.maxUdpPayloadSize < maximum
    then peer.maxUdpPayloadSize
    else maximum
  | none => maximum

def packetPayloadBudget (c : Connection) (level : Level) : Nat :=
  c.packetPayloadBudgetForWire level c.effectiveMaximumUdpPayloadSize

def setMaximumUdpPayloadSize (c : Connection) (maximum : Nat) : Connection :=
  if maximum < minimumInitialUdpPayloadBytes ∨ maximumUdpPayloadBytes < maximum then c
  else
    let effective := match c.setup.peerParams with
      | some peer =>
        if minimumInitialUdpPayloadBytes ≤ peer.maxUdpPayloadSize ∧
            peer.maxUdpPayloadSize < maximum then peer.maxUdpPayloadSize
        else maximum
      | none => maximum
    let budget := c.packetPayloadBudgetForWire .application effective
    if (c.app.pendingFrames ++ c.driver.datagrams.pendingFrames.map Frame.datagram).any
        fun frame => decide (budget < frame.encodedSize) then c
    else { c with driver.maximumUdpPayloadSize := maximum }

def pendingDatagramLimitExceeded (limits : Limits) (datagrams : Datagrams) (nextBytes : Nat) :
    Bool :=
  (0 < limits.maxPendingDatagramFrames &&
      limits.maxPendingDatagramFrames ≤ datagrams.pendingFrames.length) ||
    (0 < limits.maxPendingDatagramBytes &&
      (limits.maxPendingDatagramBytes < nextBytes ||
        limits.maxPendingDatagramBytes - nextBytes < datagrams.pendingFrameBytes))

/-- Sheds the oldest datagrams while one more does not fit and the policy allows it. -/
def reserveDatagram (limits : Limits) (nextBytes : Nat) : List Bytes → Nat → List Bytes × Nat × Bool
  | [], bytes => ([], bytes, !pendingDatagramLimitExceeded limits ⟨[], bytes, [], 0⟩ nextBytes)
  | oldest :: rest, bytes =>
    if pendingDatagramLimitExceeded limits ⟨oldest :: rest, bytes, [], 0⟩ nextBytes then
      if limits.datagramQueueOverflowPolicy = .dropOldest then
        reserveDatagram limits nextBytes rest (bytes - oldest.length)
      else (oldest :: rest, bytes, false)
    else (oldest :: rest, bytes, true)

def queueDatagramFrame (c : Connection) (data : Bytes) : Connection × Option String :=
  let frameSize := 1 + varIntSize data.length + data.length
  if c.state ≠ .opened then (c, some "QUIC connection is not open for sending")
  else if c.setup.peerParams.any fun peer => peer.maxDatagramFrameSize = 0 then
    (c, some "Peer does not accept QUIC DATAGRAM frames")
  else if c.packetPayloadBudget .application < frameSize ||
      c.setup.peerParams.any fun peer => decide (peer.maxDatagramFrameSize < frameSize) then
    (c, some "QUIC DATAGRAM does not fit the negotiated packet size")
  else if 0 < c.setup.limits.maxPendingDatagramBytes ∧
      c.setup.limits.maxPendingDatagramBytes < data.length then
    (c, some "QUIC DATAGRAM exceeds the pending queue byte limit")
  else match reserveDatagram c.setup.limits data.length c.driver.datagrams.pendingFrames
      c.driver.datagrams.pendingFrameBytes with
  | (frames, bytes, false) =>
    ({ c with
      driver.datagrams.pendingFrames := frames
      driver.datagrams.pendingFrameBytes := bytes },
      some "QUIC DATAGRAM pending queue is full")
  | (frames, bytes, true) =>
    ({ c with
      driver.datagrams.pendingFrames := frames ++ [data]
      driver.datagrams.pendingFrameBytes := bytes + data.length }, none)

def queueFrame (c : Connection) (level : Level) (frame : Frame) : Connection :=
  match level, frame with
  | .application, .datagram data => (c.queueDatagramFrame data).1
  | level, frame => c.enqueue level frame

/-- How many bytes flow control admits on a stream now. -/
def streamAllowance (c : Connection) (streamId : Nat) (stream : SendStream) : Nat :=
  match c.setup.peerParams with
  | some _ => min (c.peerStreamSendLimit streamId - stream.nextOffset)
    (c.connectionFlow.sendableBytes c.sending.totalStreamBytesSent)
  | none => maxUInt64 - stream.nextOffset

end Connection

/-- The send state once a chunk of its buffer is in a frame. -/
def SendStream.stageChunk (stream : SendStream) (chunkSize : Nat) : SendStream :=
  { stream with
    buffer := if chunkSize = stream.remaining then [] else stream.buffer
    bufferOffset := if chunkSize = stream.remaining then 0 else stream.bufferOffset + chunkSize
    nextOffset := stream.nextOffset + chunkSize
    finSent := stream.finSent || (stream.finQueued && decide (chunkSize = stream.remaining)) }

def SendStream.chunkFrame (stream : SendStream) (streamId chunkSize : Nat) : Frame :=
  .stream streamId stream.nextOffset (slice stream.buffer stream.bufferOffset chunkSize)
    (stream.finQueued && decide (chunkSize = stream.remaining))

namespace Connection

def stageChunk (c : Connection) (streamId : Nat) (stream : SendStream) (chunkSize : Nat) :
    Connection :=
  { (c.setSendStream streamId (stream.stageChunk chunkSize)).enqueue .application
      (stream.chunkFrame streamId chunkSize) with
    sending.totalStreamBytesSent := c.sending.totalStreamBytesSent + chunkSize
    sending.bufferedStreamSendBytes := c.sending.bufferedStreamSendBytes - chunkSize }

def stageFin (c : Connection) (streamId : Nat) (stream : SendStream) : Connection :=
  (c.setSendStream streamId { stream with finSent := true }).enqueue .application
    (.stream streamId stream.nextOffset [] true)

/-- The frame a stream hands over next: at most one chunk of what flow control admits, or
a FIN on its own. -/
def stageOneStreamFrame (c : Connection) (streamId : Nat) : Connection × Bool :=
  match c.sendStreams.find? streamId with
  | none => (c, false)
  | some stream =>
    if 0 < stream.remaining then
      if c.streamAllowance streamId stream = 0 then (c, false)
      else (c.stageChunk streamId stream
        (min (min stream.remaining (c.streamAllowance streamId stream)) kStreamChunkBytes), true)
    else if stream.finQueued && !stream.finSent then (c.stageFin streamId stream, true)
    else (c, false)

/-- The round-robin loop over the streams; `fuel` bounds its turns. -/
def stageLoop (streamIds : List Nat) (budget : Nat) :
    Nat → Connection → Nat → Nat → Nat → Connection × Nat
  | 0, c, cursor, _, _ => (c, cursor)
  | fuel + 1, c, cursor, staged, withoutProgress =>
    if staged < budget ∧ withoutProgress < streamIds.length then
      let result := c.stageOneStreamFrame (streamIds.getD cursor 0)
      let cursor := (cursor + 1) % streamIds.length
      if result.2 then stageLoop streamIds budget fuel result.1 cursor (staged + 1) 0
      else stageLoop streamIds budget fuel result.1 cursor staged (withoutProgress + 1)
    else (c, cursor)

def stageStreamFrames (c : Connection) : Connection :=
  let streamIds := c.sendStreams.keys
  if streamIds.isEmpty then c
  else if kMaxStagedStreamFrames ≤ c.app.pendingFrames.length then c
  else
    let budget := kMaxStagedStreamFrames - c.app.pendingFrames.length
    let result := stageLoop streamIds budget ((budget + 1) * streamIds.length) c
      (c.sending.streamSchedulingCursor % streamIds.length) 0 0
    { result.1 with sending.streamSchedulingCursor := result.2 }

def amplificationBlocked (c : Connection) (nextDatagramSize : Nat) : Bool :=
  !c.driver.path.validated &&
    decide (3 * c.driver.path.bytesReceived < c.driver.path.bytesSent + nextDatagramSize)

/-- Padding of a path-control payload, one byte at a time up to `steps` bytes. -/
def padPath (c : Connection) (maxWireBytes : Nat) : Nat → Nat → Nat
  | 0, size => size
  | steps + 1, size =>
    if c.amplificationBlocked (size + 64) || decide (maxWireBytes < size + 64) then size
    else padPath c maxWireBytes steps (size + 1)

inductive Encoded where
  | failed (message : String)
  | withheld
  | sent (c : Connection) (packet : Packet)

def trackPacket (c : Connection) (level : Level) (frames : List Frame) (nowMs size : Nat) :
    Connection :=
  let space := c.spaces level
  { c.setSpace level { space with
      nextTxPn := space.nextTxPn + 1
      loss := space.loss.onPacketSent space.nextTxPn
        { sentTimeMs := nowMs, ackEliciting := true, sentBytes := size }
      lastAckElicitingSentMs := nowMs
      hasAckElicitingInFlight := true
      sentPackets := space.sentPackets.insert space.nextTxPn
        { retransmittable := frames.filter Frame.isRetransmittable, sentBytes := size
          sentTimeMs := nowMs, ackEliciting := true } } with
    congestion := c.congestion.onPacketSent size
    driver.timers.lastNetworkActivityMs := some nowMs }

def spendPacketNumber (c : Connection) (level : Level) : Connection :=
  c.setSpace level { c.spaces level with nextTxPn := (c.spaces level).nextTxPn + 1 }

/-- The payload sizes of the two encodings a packet may go through, and its size on the
wire. The second encoding pads a packet that must fill a minimum datagram. -/
structure PacketSizes where
  payload : Nat
  expanded : Nat
  wire : Nat
  deriving DecidableEq

def packetSizes (c : Connection) (level : Level) (frames : List Frame) (ackEliciting : Bool)
    (maxWireBytes encoded : Nat) : PacketSizes :=
  let clientInitial := level = .initial && c.setup.role = .client && ackEliciting
  let pathControl := level = .application && frames.any Frame.isPathFrame
  let payload :=
    if clientInitial then
      max encoded (c.packetPayloadBudgetForWire .initial minimumInitialUdpPayloadBytes)
    else encoded
  let payload :=
    if pathControl then
      c.padPath maxWireBytes (c.packetPayloadBudgetForWire .application
        minimumInitialUdpPayloadBytes - payload) payload
    else payload
  let payload := max payload 4
  let mustReachMinimum := clientInitial ||
    (pathControl && decide (minimumInitialUdpPayloadBytes ≤ maxWireBytes) &&
      !c.amplificationBlocked minimumInitialUdpPayloadBytes)
  let expanded :=
    if mustReachMinimum && decide (c.wireSize level payload < minimumInitialUdpPayloadBytes)
    then payload + (minimumInitialUdpPayloadBytes - c.wireSize level payload)
    else payload
  { payload, expanded, wire := c.wireSize level expanded }

/-- Protects and commits a packet of known sizes. `seals` says for which packet number and
payload size packet protection succeeds. -/
def sealPacket (c : Connection) (level : Level) (frames : List Frame) (ackEliciting : Bool)
    (nowMs : Nat) (seals : Nat → Nat → Bool) (maxWireBytes : Nat) (trackGlobalLoss : Bool)
    (sizes : PacketSizes) : Encoded :=
  if !seals (c.spaces level).nextTxPn sizes.payload ||
      !seals (c.spaces level).nextTxPn sizes.expanded then
    .failed "QUIC packet protection failed"
  else if c.effectiveMaximumUdpPayloadSize < sizes.wire then
    .failed "Encoded QUIC packet exceeds the UDP payload ceiling"
  else if c.amplificationBlocked sizes.wire || decide (maxWireBytes < sizes.wire) then .withheld
  else
    .sent
      (if ackEliciting && trackGlobalLoss then c.trackPacket level frames nowMs sizes.wire
        else c.spendPacketNumber level)
      { level, keys := (c.spaces level).txKeys
        keyPhase := level = .application && c.keys.keyPhase
        packetNumber := (c.spaces level).nextTxPn, frames, size := sizes.wire }

def encodePacket (c : Connection) (level : Level) (frames : List Frame) (ackEliciting : Bool)
    (nowMs : Nat) (seals : Nat → Nat → Bool) (maxWireBytes : Nat) (trackGlobalLoss : Bool) :
    Encoded :=
  match Frame.encodeAll frames with
  | .error message => .failed message
  | .ok encoded =>
    c.sealPacket level frames ackEliciting nowMs seals maxWireBytes trackGlobalLoss
      (c.packetSizes level frames ackEliciting maxWireBytes encoded)

/-- What one packet has taken from the queues so far. -/
structure Packing where
  frames : List Frame
  payloadSize : Nat
  ackEliciting : Bool
  probesPending : Nat
  tooLarge : Bool
  deriving DecidableEq

/-- Takes frames in queue order while they fit the payload and the congestion window. A
probe may pass the window. -/
def pack (congestion : CongestionControl) (payloadBudget : Nat) : List Frame → Packing → Packing
  | [], packing => packing
  | next :: rest, packing =>
    if payloadBudget < packing.payloadSize + next.encodedSize then
      { packing with tooLarge := packing.frames.isEmpty }
    else if next.isAckEliciting then
      let fits := congestion.canSend (packing.payloadSize + next.encodedSize + 64)
      if !fits && packing.probesPending = 0 then packing
      else pack congestion payloadBudget rest { packing with
        frames := packing.frames ++ [next]
        payloadSize := packing.payloadSize + next.encodedSize
        ackEliciting := true
        probesPending := if fits then packing.probesPending else packing.probesPending - 1 }
    else pack congestion payloadBudget rest { packing with
      frames := packing.frames ++ [next]
      payloadSize := packing.payloadSize + next.encodedSize }

/-- The frames a level may send, in the order they are taken. -/
def sendQueue (c : Connection) (level : Level) : List Frame :=
  (c.spaces level).pendingFrames ++
    if level = .application then c.driver.datagrams.pendingFrames.map Frame.datagram else []

def takeDatagrams (c : Connection) (level : Level) (count : Nat) : Connection :=
  if level = .application then
    { c with
      driver.datagrams.pendingFrames := c.driver.datagrams.pendingFrames.drop count
      driver.datagrams.pendingFrameBytes := (c.driver.datagrams.pendingFrames.take count).foldl
        (fun bytes data => bytes - data.length) c.driver.datagrams.pendingFrameBytes }
  else c

/-- The queues with their first `count` frames taken. -/
def takeQueued (c : Connection) (level : Level) (count probesPending : Nat) : Connection :=
  (c.setSpace level { c.spaces level with
    pendingFrames := (c.spaces level).pendingFrames.drop count, probesPending })
  |>.takeDatagrams level (count - (c.spaces level).pendingFrames.length)

def restorePendingFrame (level : Level) (frame : Frame) (c : Connection) : Connection :=
  match level, frame with
  | .application, .datagram data =>
    { c with
      driver.datagrams.pendingFrames := data :: c.driver.datagrams.pendingFrames
      driver.datagrams.pendingFrameBytes := c.driver.datagrams.pendingFrameBytes + data.length }
  | level, frame =>
    c.setSpace level { c.spaces level with
      pendingFrames := frame :: (c.spaces level).pendingFrames }

/-- Puts back what a withheld packet may send again. -/
def restoreWithheld (c : Connection) (level : Level) (frames : List Frame) : Connection :=
  c.setSpace level { c.spaces level with
    pendingFrames := frames.filter Frame.isRetransmittable ++ (c.spaces level).pendingFrames }

/-- Receive-side acknowledgement state once a generated ACK is in the output batch. -/
def commitAck (c : Connection) (level : Level) : Connection :=
  let space := c.spaces level
  c.setSpace level { space with
    ackTracker := space.ackTracker.onAckSent, ackDeadlineMs := none, ackElicitingSinceAck := 0 }

def generateAck (c : Connection) (level : Level) (nowMs : Nat) : Except String Frame :=
  let space := c.spaces level
  let delayMs := min (nowMs - space.largestReceivedTimeMs) kLocalMaxAckDelayMs
  space.ackTracker.buildAckFrame (delayMs * 1000 / 8)

/-- How one turn of the assembly loop ends. -/
inductive Assembled where
  | failed (c : Connection) (message : String)
  | finished (c : Connection)
  | sent (c : Connection) (packet : Packet)

def Assembled.connection : Assembled → Connection
  | .failed c _ | .finished c | .sent c _ => c

/-- What the next packet of a level takes. -/
def packing (c : Connection) (level : Level) (generated : Option Frame) : Packing :=
  pack c.congestion (c.packetPayloadBudget level) (c.sendQueue level)
    { frames := generated.toList
      payloadSize := (generated.toList.map Frame.encodedSize).sum, ackEliciting := false
      probesPending := (c.spaces level).probesPending, tooLarge := false }

/-- Path budget, pacing and receive-side ACK state once a packet is in the output batch. -/
def commitPacket (c : Connection) (level : Level) (generated : Option Frame) (size : Nat) :
    Connection :=
  let c := { c with
    driver.path.bytesSent := c.driver.path.bytesSent + size
    driver.pacing.tokens := if 0 < c.driver.pacing.ratePerMillisecond then
        c.driver.pacing.tokens - 1
      else c.driver.pacing.tokens }
  if generated.isSome then c.commitAck level else c

/-- Encodes the packet of `packing`, from a state whose queues it has been taken of. -/
def sendPacking (c : Connection) (level : Level) (nowMs : Nat) (seals : Nat → Nat → Bool)
    (generated : Option Frame) (packing : Packing) : Assembled :=
  match c.encodePacket level packing.frames packing.ackEliciting nowMs seals maxUInt64 true with
  | .failed message =>
    .failed ((packing.frames.drop generated.toList.length).foldr (restorePendingFrame level) c)
      message
  | .withheld => .finished (c.restoreWithheld level packing.frames)
  | .sent c packet => .sent (c.commitPacket level generated packet.size) packet

def assemblePacket (c : Connection) (level : Level) (nowMs : Nat) (seals : Nat → Nat → Bool)
    (generated : Option Frame) : Assembled :=
  if (c.packing level generated).tooLarge then
    .failed c "Pending QUIC frame exceeds the UDP payload ceiling"
  else if (c.packing level generated).frames.isEmpty then .finished c
  else
    (c.takeQueued level ((c.packing level generated).frames.length - generated.toList.length)
      (c.packing level generated).probesPending).sendPacking level nowMs seals generated
      (c.packing level generated)

/-- The assembly loop of a level; `fuel` bounds its packets. -/
def assembleLoop (level : Level) (nowMs : Nat) (seals : Nat → Nat → Bool) :
    Nat → Connection → Bool → List Packet → Connection × List Packet × Option String
  | 0, c, _, packets => (c, packets, none)
  | fuel + 1, c, ackWanted, packets =>
    if (c.hasPendingFrames level || ackWanted) &&
        (c.setup.limits.maxDatagramsPerBuild = 0 ||
          packets.length < c.setup.limits.maxDatagramsPerBuild) &&
        (c.driver.pacing.ratePerMillisecond = 0 || 0 < c.driver.pacing.tokens) then
      match if ackWanted then (c.generateAck level nowMs).map some else .ok none with
      | .error message => (c, packets, some message)
      | .ok generated =>
        match c.assemblePacket level nowMs seals generated with
        | .failed c message => (c, packets, some message)
        | .finished c => (c, packets, none)
        | .sent c packet =>
          if !c.hasPendingFrames level ||
              (!c.congestion.canSend 64 && (c.spaces level).probesPending = 0) then
            (c, packets ++ [packet], none)
          else assembleLoop level nowMs seals fuel c false (packets ++ [packet])
    else (c, packets, none)

/-- Whether the next packet of a level is to carry an ACK frame. -/
def ackWanted (c : Connection) (level : Level) (nowMs : Nat) : Bool :=
  let space := c.spaces level
  let ackDue := match space.ackDeadlineMs with
    | some deadline => decide (deadline ≤ nowMs) && !space.ackTracker.ranges.isEmpty
    | none => false
  !space.ackTracker.ranges.isEmpty && space.ackTracker.ackElicitingPending &&
    (ackDue || level ≠ .application || c.hasPendingFrames level)

def stageLevel (c : Connection) (level : Level) : Connection :=
  if level = .application then c.stageStreamFrames else c

def buildDatagramsForLevel (c : Connection) (level : Level) (nowMs : Nat)
    (seals : Nat → Nat → Bool) (packets : List Packet) :
    Connection × List Packet × Option String :=
  if !c.levelCanSend level then (c, packets, none)
  else
    assembleLoop level nowMs seals (((c.stageLevel level).sendQueue level).length + 2)
      (c.stageLevel level) ((c.stageLevel level).ackWanted level nowMs) packets

def buildCloseDatagram (c : Connection) (clock : Clock) (seals : Nat → Nat → Bool) :
    Connection × List Packet × Option String :=
  if !c.driver.closing.queued || c.driver.closing.sent then (c, [], none)
  else
    let level? :=
      if c.levelCanSend .application then some Level.application
      else if c.levelCanSend .handshake then some .handshake
      else if c.levelCanSend .initial then some .initial
      else none
    match level? with
    | none => (c, [], some "QUIC connection has no keys to send CONNECTION_CLOSE")
    | some level =>
      let frame :=
        if c.driver.closing.isApplication then
          if level = .application then
            Frame.connectionClose true c.driver.closing.errorCode 0 c.driver.closing.reason
          else .connectionClose false 0x0c 0 []
        else .connectionClose false c.driver.closing.errorCode 0 c.driver.closing.reason
      let finish (c : Connection) : Connection :=
        armDrainTimer { c with driver.closing.sent := true } clock
      match c.encodePacket level [frame] false clock.nowMs seals maxUInt64 true with
      | .failed message => (c, [], some message)
      | .withheld => (finish c, [], none)
      | .sent c packet => (finish c, [packet], none)

def refillPacing (pacing : Pacing) (nowMs : Nat) : Pacing :=
  if pacing.ratePerMillisecond = 0 then pacing
  else if pacing.lastRefillMs = 0 then
    { pacing with lastRefillMs := nowMs, tokens := pacing.maximumBurst }
  else if pacing.lastRefillMs < nowMs then
    { pacing with
      tokens := min (pacing.tokens + (nowMs - pacing.lastRefillMs) * pacing.ratePerMillisecond)
        pacing.maximumBurst
      lastRefillMs := nowMs }
  else pacing

/-- The level loop of `buildDatagrams`. -/
def buildLevels (nowMs : Nat) (seals : Nat → Nat → Bool) :
    List Level → Connection → List Packet → Connection × List Packet × Option String
  | [], c, packets => (c, packets, none)
  | level :: rest, c, packets =>
    if 0 < c.setup.limits.maxDatagramsPerBuild ∧
        c.setup.limits.maxDatagramsPerBuild ≤ packets.length then
      (c, packets, none)
    else match c.buildDatagramsForLevel level nowMs seals packets with
      | (c, packets, some message) => (c, packets, some message)
      | (c, packets, none) => buildLevels nowMs seals rest c packets

def buildDatagrams (c : Connection) (clock : Clock) (seals : Nat → Nat → Bool) :
    Connection × List Packet × Option String :=
  let c := { c with driver.pacing := refillPacing c.driver.pacing clock.nowMs }
  match c.state with
  | .draining | .closed => (c, [], none)
  | .closing => c.buildCloseDatagram clock seals
  | .opened => buildLevels clock.nowMs seals [.initial, .handshake, .application] c []

def buildPathControlDatagram (c : Connection) (response : Bool) (controlData : Bytes)
    (nowMs maxWireBytes : Nat) (seals : Nat → Nat → Bool) :
    Connection × List Packet × Option String :=
  if c.state ≠ .opened ∨ controlData.length ≠ 8 ∨ c.app.txKeys.isNone then
    (c, [], some "Cannot build QUIC path control packet")
  else
    let frame := if response then Frame.pathResponse controlData else .pathChallenge controlData
    match c.encodePacket .application [frame] true nowMs seals maxWireBytes false with
    | .failed message => (c, [], some message)
    | .withheld => (c, [], none)
    | .sent c packet => (c, [packet], none)

end Connection
end SwStack.Quic
