import SwStack.Lib.SortedMap
import SwStack.Quic.Frame

/-! Received packet numbers, loss detection and congestion control. The round-trip
estimator works on doubles: what it yields is an input of the calls that use it. -/
namespace SwStack.Quic

open SwStack.Lib

/-- An inclusive range of received packet numbers. -/
structure LocalAckRange where
  high : Nat
  low : Nat
  deriving DecidableEq

/-- Ranges from the highest to the lowest. -/
structure AckTracker where
  ranges : List LocalAckRange
  ackElicitingPending : Bool
  deriving DecidableEq

def kMaxTrackedPackets : Nat := 1024

namespace AckTracker

def empty : AckTracker := { ranges := [], ackElicitingPending := false }

/-- Cuts the ranges below `floor`. -/
def trimBelow (floor : Nat) : List LocalAckRange → List LocalAckRange
  | [] => []
  | range :: rest =>
    if range.high < floor then []
    else if range.low < floor then [{ range with low := floor }]
    else range :: trimBelow floor rest

def trimWindow : List LocalAckRange → List LocalAckRange
  | [] => []
  | first :: rest => trimBelow (first.high - (kMaxTrackedPackets - 1)) (first :: rest)

/-- The walk of `recordReceivedPacket` past the ranges above the packet number, `above`
being the range before the current one. A duplicate changes nothing. -/
def insertNumber (number : Nat) (above : Option LocalAckRange) :
    List LocalAckRange → Option (List LocalAckRange)
  | [] => some (above.toList ++ [⟨number, number⟩])
  | current :: rest =>
    if current.low ≤ number ∧ number ≤ current.high then none
    else if current.high < number then
      if number = current.high + 1 then
        match above with
        | some previous =>
          if previous.low = number + 1 then some ({ previous with low := current.low } :: rest)
          else some (previous :: { current with high := number } :: rest)
        | none => some ({ current with high := number } :: rest)
      else some (above.toList ++ ⟨number, number⟩ :: current :: rest)
    else if number + 1 = current.low then
      match rest with
      | next :: rest =>
        if number = next.high + 1 then
          some (above.toList ++ { current with low := next.low } :: rest)
        else some (above.toList ++ { current with low := number } :: next :: rest)
      | [] => some (above.toList ++ [{ current with low := number }])
    else (insertNumber number (some current) rest).map (above.toList ++ ·)

def containsRanges (number : Nat) : List LocalAckRange → Bool
  | [] => false
  | current :: rest =>
    if current.high < number then false
    else if current.low ≤ number then true
    else containsRanges number rest

def containsReceivedPacket (tracker : AckTracker) (number : Nat) : Bool :=
  containsRanges number tracker.ranges

def recordReceivedPacket (tracker : AckTracker) (number : Nat) (ackEliciting : Bool) :
    AckTracker :=
  { ackElicitingPending := tracker.ackElicitingPending || ackEliciting
    ranges := match insertNumber number none tracker.ranges with
      | some ranges => trimWindow ranges
      | none => tracker.ranges }

def onAckSent (tracker : AckTracker) : AckTracker := { tracker with ackElicitingPending := false }

/-- The gaps and lengths that follow the first range of an ACK frame. -/
def frameRanges : LocalAckRange → List LocalAckRange → Except String (List AckRange)
  | _, [] => .ok []
  | previous, current :: rest =>
    if previous.low ≤ current.high + 1 then .error "Invalid QUIC ACK range ordering"
    else
      let range : AckRange :=
        ⟨previous.low - current.high - 2, current.high - current.low⟩
      if maxVarInt < range.gap ∨ maxVarInt < range.rangeLength then
        .error "QUIC ACK value does not fit variable integer encoding"
      else match frameRanges current rest with
        | .ok ranges => .ok (range :: ranges)
        | .error message => .error message

def buildAckFrame (tracker : AckTracker) (ackDelay : Nat) : Except String Frame :=
  match tracker.ranges with
  | [] => .error "Cannot build QUIC ACK frame without received packets"
  | first :: rest =>
    if maxVarInt < first.high ∨ maxVarInt < ackDelay ∨ maxVarInt < first.high - first.low then
      .error "QUIC ACK value does not fit variable integer encoding"
    else match frameRanges first rest with
      | .ok ranges => .ok (.ack first.high ackDelay (first.high - first.low) ranges none)
      | .error message => .error message

end AckTracker

/-- What the round-trip estimator yields at a call: the time threshold of loss detection,
the persistent congestion duration and the probe timeout, in whole milliseconds. -/
structure Clock where
  nowMs : Nat
  lossTimeThresholdMs : Nat
  persistentDurationMs : Nat
  ptoMs : Level → Nat

structure SentPacket where
  sentTimeMs : Nat
  ackEliciting : Bool
  sentBytes : Nat
  deriving DecidableEq

structure LossRecovery where
  hasRttSample : Bool
  sent : SortedMap Nat SentPacket
  deriving DecidableEq

structure AckResult where
  newlyAcked : List Nat
  lost : List Nat
  deriving DecidableEq

def kPacketThreshold : Nat := 3

namespace LossRecovery

def empty : LossRecovery := { hasRttSample := false, sent := ∅ }

def onPacketSent (loss : LossRecovery) (packetNumber : Nat) (packet : SentPacket) :
    LossRecovery := { loss with sent := loss.sent.insert packetNumber packet }

/-- The tracked packet numbers of an acknowledged range. -/
def inRange (sent : SortedMap Nat SentPacket) (range : Nat × Nat) : List (Nat × SentPacket) :=
  sent.entries.filter fun entry => min range.1 range.2 ≤ entry.1 ∧ entry.1 ≤ max range.1 range.2

/-- Takes the acknowledged packets out of the map, from the lowest range to the highest,
and the largest acknowledged one even when no range names it. -/
def takeAcked (sent : SortedMap Nat SentPacket) (largestAcked : Nat) (ranges : List (Nat × Nat)) :
    SortedMap Nat SentPacket × List Nat :=
  let taken := ranges.reverse.foldl (fun (state : SortedMap Nat SentPacket × List Nat) range =>
    let acked := (inRange state.1 range).map Prod.fst
    (acked.foldl SortedMap.erase state.1, state.2 ++ acked)) (sent, [])
  if taken.1.contains largestAcked then
    (taken.1.erase largestAcked, taken.2 ++ [largestAcked])
  else taken

def isLost (clock : Clock) (largestAcked packetNumber : Nat) (packet : SentPacket) : Bool :=
  decide (kPacketThreshold ≤ largestAcked - packetNumber) ||
    decide (packet.sentTimeMs + clock.lossTimeThresholdMs ≤ clock.nowMs)

def onAckReceived (loss : LossRecovery) (largestAcked : Nat) (ranges : List (Nat × Nat))
    (clock : Clock) : Except String (LossRecovery × AckResult) :=
  let sample := match loss.sent.find? largestAcked with
    | some largest =>
      if largest.ackEliciting ||
          ranges.any fun range => (inRange loss.sent range).any fun entry => entry.2.ackEliciting
      then some largest.sentTimeMs
      else none
    | none => none
  match sample with
  | some sentTimeMs =>
    if clock.nowMs < sentTimeMs then .error "QUIC ACK time precedes packet send time"
    else .ok (detect true)
  | none => .ok (detect loss.hasRttSample)
where
  detect (hasRttSample : Bool) : LossRecovery × AckResult :=
    let taken := takeAcked loss.sent largestAcked ranges
    let lost := (taken.1.entries.filter fun entry =>
      decide (entry.1 < largestAcked) && isLost clock largestAcked entry.1 entry.2).map Prod.fst
    ({ hasRttSample, sent := lost.foldl SortedMap.erase taken.1 }, { newlyAcked := taken.2, lost })

end LossRecovery

structure CongestionControl where
  congestionWindow : Nat
  bytesInFlight : Nat
  ssthresh : Nat
  recoveryStartTimeMs : Nat
  started : Bool
  deriving DecidableEq

def maximumUdpPayloadBytes : Nat := 1450
def minimumInitialUdpPayloadBytes : Nat := 1200

namespace CongestionControl

def initialWindow (maxDatagramSize : Nat) : Nat :=
  min (10 * maxDatagramSize) (max (2 * maxDatagramSize) 14720)

def initial : CongestionControl :=
  { congestionWindow := initialWindow maximumUdpPayloadBytes, bytesInFlight := 0
    ssthresh := 2 ^ 64 - 1, recoveryStartTimeMs := 0, started := false }

def onPacketSent (control : CongestionControl) (sentBytes : Nat) : CongestionControl :=
  { control with bytesInFlight := control.bytesInFlight + sentBytes }

def leaveFlight (control : CongestionControl) (bytes : Nat) : CongestionControl :=
  { control with bytesInFlight := control.bytesInFlight - bytes }

def beforeRecovery (control : CongestionControl) (sentTimeMs : Nat) : Bool :=
  control.started && decide (sentTimeMs ≤ control.recoveryStartTimeMs)

def onPacketAcked (control : CongestionControl) (ackedBytes sentTimeMs : Nat) : CongestionControl :=
  let control := control.leaveFlight ackedBytes
  if control.beforeRecovery sentTimeMs then control
  else if control.congestionWindow < control.ssthresh then
    { control with congestionWindow := control.congestionWindow + ackedBytes }
  else if 0 < control.congestionWindow then
    { control with congestionWindow := control.congestionWindow +
        (maximumUdpPayloadBytes * ackedBytes) / control.congestionWindow }
  else control

def onCongestionEvent (control : CongestionControl) (sentTimeMs nowMs : Nat) : CongestionControl :=
  if control.beforeRecovery sentTimeMs then control
  else
    let halved := max (control.congestionWindow / 2) (2 * maximumUdpPayloadBytes)
    { control with
      started := true, recoveryStartTimeMs := nowMs, ssthresh := halved
      congestionWindow := halved }

def onPacketsLost (control : CongestionControl) (lostBytes largestLostSentTimeMs nowMs : Nat) :
    CongestionControl :=
  (control.leaveFlight lostBytes).onCongestionEvent largestLostSentTimeMs nowMs

def onPersistentCongestion (control : CongestionControl) : CongestionControl :=
  { control with congestionWindow := 2 * maximumUdpPayloadBytes }

def canSend (control : CongestionControl) (bytes : Nat) : Bool :=
  decide (control.bytesInFlight + bytes ≤ control.congestionWindow)

end CongestionControl
end SwStack.Quic
