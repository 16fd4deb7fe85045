import SwStack.Lib.Stretches
import SwStack.Quic.Emission
import SwStack.Quic.LossDetection
import SwStack.Quic.Simulation

/-! When an ACK event declares persistent congestion. The code takes the send times of the
packets one event declares lost, and compares the first with the last. Whether a packet sent
between them was acknowledged is not looked at. -/
namespace SwStack.Quic

open SwStack.Lib List

namespace Connection

def spanOf (times : List Nat) : LostSpan := times.foldl LostSpan.add ⟨0, 0, 0⟩

def LostSpan.reaches (span : LostSpan) (duration : Nat) : Prop :=
  kPersistentLossCount ≤ span.count ∧ duration ≤ span.latest - span.earliest

instance (span : LostSpan) (duration : Nat) : Decidable (span.reaches duration) :=
  inferInstanceAs (Decidable (_ ∧ _))

/-- How far two send times are apart. -/
def timeApart (first second : Nat) : Nat := max first second - min first second

/-- A span holds the number of its times, and its ends are times that enclose the others. -/
structure LostSpan.Encloses (span : LostSpan) (times : List Nat) : Prop where
  count : span.count = times.length
  earliest_mem : times ≠ [] → span.earliest ∈ times
  latest_mem : times ≠ [] → span.latest ∈ times
  earliest_le : ∀ time ∈ times, span.earliest ≤ time
  le_latest : ∀ time ∈ times, time ≤ span.latest

theorem LostSpan.Encloses.add {span : LostSpan} {times : List Nat} (encloses : span.Encloses times)
    (time : Nat) : (span.add time).Encloses (times ++ [time]) := by
  cases times with
  | nil =>
    have first : span.count = 0 := encloses.count
    constructor <;> simp [LostSpan.add, first]
  | cons head tail =>
    have later : span.count ≠ 0 := by simp [encloses.count]
    have low := encloses.earliest_mem (cons_ne_nil _ _)
    have high := encloses.latest_mem (cons_ne_nil _ _)
    constructor
    · simp [LostSpan.add, encloses.count]
    · intro _
      rw [LostSpan.add, if_neg later, mem_append]
      rcases Nat.le_total span.earliest time with before | after
      · rw [Nat.min_eq_left before]
        exact .inl low
      · rw [Nat.min_eq_right after]
        exact .inr (mem_singleton_self _)
    · intro _
      rw [LostSpan.add, if_neg later, if_neg later, mem_append]
      rcases Nat.le_total span.latest time with before | after
      · rw [Nat.max_eq_right before]
        exact .inr (mem_singleton_self _)
      · rw [Nat.max_eq_left after]
        exact .inl high
    · intro other member
      rw [LostSpan.add, if_neg later]
      rcases mem_append.mp member with old | new
      · exact (Nat.min_le_left _ _).trans (encloses.earliest_le other old)
      · exact mem_singleton.mp new ▸ Nat.min_le_right _ _
    · intro other member
      rw [LostSpan.add, if_neg later, if_neg later]
      rcases mem_append.mp member with old | new
      · exact (encloses.le_latest other old).trans (Nat.le_max_left _ _)
      · exact mem_singleton.mp new ▸ Nat.le_max_right _ _

theorem spanOf_encloses (times : List Nat) : (spanOf times).Encloses times := by
  induction times using List.reverseRecOn with
  | nil => constructor <;> simp [spanOf]
  | append_singleton times time ih =>
    rw [spanOf, foldl_append]
    exact ih.add time

/-- The extremes reach a duration exactly when two of the times do. -/
theorem spanOf_reaches_iff {times : List Nat} {duration : Nat} :
    (spanOf times).reaches duration ↔
      ∃ first second, List.Sublist [first, second] times ∧ duration ≤ timeApart first second := by
  have encloses := spanOf_encloses times
  unfold LostSpan.reaches kPersistentLossCount timeApart
  rw [encloses.count]
  constructor
  · rintro ⟨two, apart⟩
    have some_ : times ≠ [] := by
      rintro rfl
      simp at two
    by_cases same : (spanOf times).earliest = (spanOf times).latest
    · -- all times are equal, and any two of them will do
      obtain ⟨first, second, rest, rfl⟩ : ∃ first second rest, times = first :: second :: rest := by
        cases times with
        | nil => contradiction
        | cons first tail =>
          cases tail with
          | nil => simp at two
          | cons second rest => exact ⟨first, second, rest, rfl⟩
      refine ⟨first, second, by simp, ?_⟩
      omega
    · rcases pair_sublist_of_mem (encloses.earliest_mem some_) (encloses.latest_mem some_) same with
        order | order
      · exact ⟨_, _, order, by omega⟩
      · exact ⟨_, _, order, by omega⟩
  · rintro ⟨first, second, sublist, apart⟩
    have members : ∀ time ∈ [first, second], time ∈ times := fun _ member => sublist.subset member
    have firstIn := members first (by simp)
    have secondIn := members second (by simp)
    have := encloses.earliest_le first firstIn
    have := encloses.earliest_le second secondIn
    have := encloses.le_latest first firstIn
    have := encloses.le_latest second secondIn
    exact ⟨sublist.length_le, by omega⟩

/-- The send time an event uses of a packet it declares lost. -/
def recordTime? (c : Connection) (level : Level) (packetNumber : Nat) : Option Nat :=
  match (c.spaces level).sentPackets.find? packetNumber with
  | some record => if record.ackEliciting then some record.sentTimeMs else none
  | none => none

variable {c : Connection}

theorem recordTime?_congr {d : Connection} (same : (d.spaces level).sentPackets.find? packetNumber =
      (c.spaces level).sentPackets.find? packetNumber) :
    d.recordTime? level packetNumber = c.recordTime? level packetNumber := by
  rw [recordTime?, recordTime?, same]

theorem acknowledgePacket_recordTime? (c : Connection) (level : Level)
    (different : other ≠ packetNumber) :
    (acknowledgePacket level c packetNumber).recordTime? level other =
      c.recordTime? level other := by
  refine recordTime?_congr ?_
  unfold acknowledgePacket
  split
  · rfl
  · simp [forgetPacket, SortedMap.find?_erase, different]

theorem foldl_acknowledgePacket_recordTime? (level : Level) (numbers : List Nat) (c : Connection)
    {other : Nat} (absent : other ∉ numbers) :
    (numbers.foldl (acknowledgePacket level) c).recordTime? level other =
      c.recordTime? level other := by
  induction numbers generalizing c with
  | nil => rfl
  | cons number rest ih =>
    rw [mem_cons, not_or] at absent
    rw [foldl_cons, ih _ absent.2, acknowledgePacket_recordTime? c level absent.1]

theorem requeueLost_recordTime? (c : Connection) (level : Level) (nowMs : Nat)
    (record : SentRecord) (different : other ≠ packetNumber) :
    (c.requeueLost level nowMs packetNumber record).recordTime? level other =
      c.recordTime? level other := by
  refine recordTime?_congr ?_
  simp [requeueLost, forgetPacket, enqueueAll, SortedMap.find?_erase, different]

/-- The span of an event is that of the send times on record of what it declares lost. -/
theorem foldl_losePacket_span (level : Level) (nowMs : Nat) {numbers : List Nat}
    (distinct : numbers.Nodup) (c : Connection) (span : LostSpan) :
    (numbers.foldl (losePacket level nowMs) (c, span)).2 =
      (numbers.filterMap (c.recordTime? level)).foldl LostSpan.add span := by
  induction numbers generalizing c span with
  | nil => rfl
  | cons number rest ih =>
    obtain ⟨absent, tail⟩ := nodup_cons.mp distinct
    rw [foldl_cons, filterMap_cons]
    cases found : (c.spaces level).sentPackets.find? number with
    | none =>
      have first : losePacket level nowMs (c, span) number = (c, span) := by
        simp only [losePacket, found]
      have untimed : c.recordTime? level number = none := by simp only [recordTime?, found]
      rw [first, untimed, ih tail]
    | some record =>
      have first : losePacket level nowMs (c, span) number =
          (c.requeueLost level nowMs number record,
            if record.ackEliciting then span.add record.sentTimeMs else span) := by
        simp only [losePacket, found]
      have later : rest.filterMap ((c.requeueLost level nowMs number record).recordTime? level) =
          rest.filterMap (c.recordTime? level) := by
        refine filterMap_congr fun other member => ?_
        exact requeueLost_recordTime? c level nowMs record fun same => absent (same ▸ member)
      rw [first, ih tail, later]
      cases eliciting : record.ackEliciting with
      | true =>
        have timed : c.recordTime? level number = some record.sentTimeMs := by
          simp only [recordTime?, found, eliciting, if_true]
        rw [timed, if_pos rfl, foldl_cons]
      | false =>
        have untimed : c.recordTime? level number = none := by
          simp only [recordTime?, found, eliciting, Bool.false_eq_true, if_false]
        rw [untimed, if_neg Bool.false_ne_true]

theorem foldl_acknowledgePacket_loss (level : Level) (numbers : List Nat) (c : Connection) :
    ((numbers.foldl (acknowledgePacket level) c).spaces level).loss = (c.spaces level).loss := by
  induction numbers generalizing c with
  | nil => rfl
  | cons number rest ih => rw [foldl_cons, ih, acknowledgePacket_tracked]

theorem foldl_losePacket_loss (level : Level) (nowMs : Nat) (numbers : List Nat)
    (state : Connection × LostSpan) :
    ((numbers.foldl (losePacket level nowMs) state).1.spaces level).loss =
      (state.1.spaces level).loss := by
  induction numbers generalizing state with
  | nil => rfl
  | cons number rest ih => rw [foldl_cons, ih, losePacket_tracked]

/-- An event up to the test for persistent congestion. -/
def losses (c : Connection) (level : Level) (clock : Clock) (loss : LossRecovery)
    (result : AckResult) : Connection × LostSpan :=
  result.lost.foldl (losePacket level clock.nowMs)
    (result.newlyAcked.foldl (acknowledgePacket level) (c.startAck level loss result), ⟨0, 0, 0⟩)

/-- The test for persistent congestion. -/
def persistentCongestion (level : Level) (clock : Clock) (state : Connection × LostSpan) : Bool :=
  (state.1.spaces level).loss.hasRttSample && decide (state.2.reaches clock.persistentDurationMs)

theorem persistentCongestion_iff {state : Connection × LostSpan} :
    persistentCongestion level clock state = true ↔
      (state.1.spaces level).loss.hasRttSample = true ∧
        state.2.reaches clock.persistentDurationMs := by
  rw [persistentCongestion, Bool.and_eq_true, decide_eq_true_eq]

/-- The test is the one of the event. -/
theorem settleAck_eq (c : Connection) (loss : LossRecovery) (result : AckResult) :
    c.settleAck level clock loss result =
      if persistentCongestion level clock (c.losses level clock loss result) then
        { (c.losses level clock loss result).1 with
          congestion := (c.losses level clock loss result).1.congestion.onPersistentCongestion }
      else (c.losses level clock loss result).1 :=
  if_congr persistentCongestion_iff.symm rfl rfl

/-- The thresholds call the packet lost, and the ACK does not name it. -/
def outdated (c : Connection) (level : Level) (clock : Clock) (largest : Nat)
    (ranges : List (Nat × Nat)) (packetNumber : Nat) : Bool :=
  !isAcked packetNumber largest ranges && decide (packetNumber < largest) &&
    ((c.spaces level).loss.sent.find? packetNumber).any
      (LossRecovery.isLost clock largest packetNumber)

/-- The estimator whose time threshold is the clock's. -/
def clockEstimator (clock : Clock) : RttEstimator Unit where
  updateRtt _ _ _ := ()
  timeLost _ nowMs sentTimeMs := decide (sentTimeMs + clock.lossTimeThresholdMs ≤ nowMs)

variable {loss after : LossRecovery} {ranges : List (Nat × Nat)}

theorem onAckReceived_settles
    (received : loss.onAckReceived largest ranges clock = .ok (after, result)) :
    ∃ detector, (clockEstimator clock).Settles loss.sent largest ranges clock.nowMs detector
      result := by
  have same := @RttEstimator.onAckReceived_eq Unit (clockEstimator clock) ⟨(), none, loss.sent⟩ loss
    clock largest 0 ranges rfl fun _ => rfl
  rw [received] at same
  cases outcome : (clockEstimator clock).onAckReceived ⟨(), none, loss.sent⟩ largest 0 ranges
      clock.nowMs with
  | mk detector rest =>
    rw [outcome] at same
    obtain ⟨reported, -⟩ := same
    change rest = (result, none) at reported
    rw [reported] at outcome
    exact ⟨detector, (clockEstimator clock).onAckReceived_settles outcome⟩

theorem mem_lost_iff
    (received : (c.spaces level).loss.onAckReceived largest ranges clock = .ok (after, result))
    (packetNumber : Nat) :
    packetNumber ∈ result.lost ↔ c.outdated level clock largest ranges packetNumber = true := by
  obtain ⟨detector, settles⟩ := onAckReceived_settles received
  rw [settles.lost, outdated]
  cases found : (c.spaces level).loss.sent.find? packetNumber with
  | none => simp
  | some packet =>
    simp only [Option.some.injEq, exists_eq_left', Option.any_some, Bool.and_eq_true,
      Bool.not_eq_eq_eq_not, Bool.not_true, decide_eq_true_eq, and_assoc]
    exact Iff.rfl

theorem lost_not_acked (received : loss.onAckReceived largest ranges clock = .ok (after, result))
    (lost : packetNumber ∈ result.lost) : packetNumber ∉ result.newlyAcked := by
  obtain ⟨detector, settles⟩ := onAckReceived_settles received
  intro acked
  obtain ⟨packet, -, unnamed, -⟩ := (settles.lost packetNumber).mp lost
  rw [((settles.acked packetNumber).mp acked).2] at unnamed
  contradiction

/-- Whether an ACK yields a round-trip sample: its largest packet is tracked, and it or a
packet in a range is ack-eliciting. -/
def sampled (loss : LossRecovery) (largest : Nat) (ranges : List (Nat × Nat)) : Bool :=
  (loss.sent.find? largest).any fun packet => packet.ackEliciting ||
    ranges.any fun range => (LossRecovery.inRange loss.sent range).any fun entry =>
      entry.2.ackEliciting

theorem onAckReceived_sampled
    (received : loss.onAckReceived largest ranges clock = .ok (after, result)) :
    after.hasRttSample = (loss.hasRttSample || sampled loss largest ranges) := by
  unfold LossRecovery.onAckReceived at received
  unfold sampled
  cases found : loss.sent.find? largest with
  | none =>
    simp only [found] at received
    cases received
    exact (Bool.or_false _).symm
  | some packet =>
    simp only [found, Option.any_some] at received ⊢
    generalize (packet.ackEliciting || ranges.any fun range =>
      (LossRecovery.inRange loss.sent range).any fun entry => entry.2.ackEliciting) = taken
      at received ⊢
    cases taken with
    | false =>
      cases received
      exact (Bool.or_false _).symm
    | true =>
      simp only [if_true] at received
      split at received
      · contradiction
      · cases received
        exact (Bool.or_true _).symm

/-- Two packets that the ACK finds outdated were sent at least the duration apart, and there
is a round-trip sample. -/
def SpansDuration (c : Connection) (level : Level) (clock : Clock) (largest : Nat)
    (ranges : List (Nat × Nat)) : Prop :=
  ((c.spaces level).loss.hasRttSample || sampled (c.spaces level).loss largest ranges) = true ∧
  ∃ first second firstTime secondTime, first ≠ second ∧
    c.outdated level clock largest ranges first = true ∧
    c.outdated level clock largest ranges second = true ∧
    c.recordTime? level first = some firstTime ∧ c.recordTime? level second = some secondTime ∧
    clock.persistentDurationMs ≤ timeApart firstTime secondTime

theorem timeApart_comm (first second : Nat) : timeApart first second = timeApart second first := by
  rw [timeApart, timeApart, Nat.max_comm, Nat.min_comm]

/-- The test on the extremes of an event finds what two of its packets show. -/
theorem persistentCongestion_losses
    (received : (c.spaces level).loss.onAckReceived largest ranges clock = .ok (loss, result)) :
    persistentCongestion level clock (c.losses level clock loss result) = true ↔
      c.SpansDuration level clock largest ranges := by
  obtain ⟨detector, settles⟩ := onAckReceived_settles received
  have kept : ((c.losses level clock loss result).1.spaces level).loss = loss := by
    rw [losses, foldl_losePacket_loss, foldl_acknowledgePacket_loss]
    simp [startAck]
  have times : (c.losses level clock loss result).2 =
      spanOf (result.lost.filterMap (c.recordTime? level)) := by
    rw [losses, foldl_losePacket_span level clock.nowMs settles.lost_nodup, spanOf]
    congr 1
    refine filterMap_congr fun number member => ?_
    rw [foldl_acknowledgePacket_recordTime? level _ _ (lost_not_acked received member)]
    exact recordTime?_congr (by simp [startAck])
  rw [persistentCongestion_iff, kept, times, onAckReceived_sampled received, spanOf_reaches_iff,
    SpansDuration]
  refine and_congr_right fun _ => ?_
  constructor
  · rintro ⟨firstTime, secondTime, sublist, apart⟩
    obtain ⟨first, second, order, firstAt, secondAt⟩ := pair_sublist_filterMap.mp sublist
    have distinct := order.nodup settles.lost_nodup
    refine ⟨first, second, firstTime, secondTime, ?_, ?_, ?_, firstAt, secondAt, apart⟩
    · rintro rfl
      simp at distinct
    · exact (mem_lost_iff received first).mp (order.subset (by simp))
    · exact (mem_lost_iff received second).mp (order.subset (by simp))
  · rintro ⟨first, second, firstTime, secondTime, different, firstLost, secondLost, firstAt,
      secondAt, apart⟩
    have firstIn := (mem_lost_iff received first).mpr firstLost
    have secondIn := (mem_lost_iff received second).mpr secondLost
    rcases pair_sublist_of_mem firstIn secondIn different with order | order
    · exact ⟨firstTime, secondTime,
        pair_sublist_filterMap.mpr ⟨first, second, order, firstAt, secondAt⟩, apart⟩
    · exact ⟨secondTime, firstTime,
        pair_sublist_filterMap.mpr ⟨second, first, order, secondAt, firstAt⟩,
        timeApart_comm firstTime secondTime ▸ apart⟩

end Connection

/-- An ACK frame as it arrives. -/
structure AckArrival where
  level : Level
  mode : ReceiveMode
  clock : Clock
  largest : Nat
  ackDelay : Nat
  firstAckRange : Nat
  ranges : List AckRange
  ecn : Option EcnCounts

def AckArrival.input (arrival : AckArrival) : Input :=
  .processFrame arrival.level arrival.mode arrival.clock
    (.ack arrival.largest arrival.ackDelay arrival.firstAckRange arrival.ranges arrival.ecn)

def Input.ack? : Input → Option AckArrival
  | .processFrame level mode clock (.ack largest ackDelay firstAckRange ranges ecn) =>
    some { level, mode, clock, largest, ackDelay, firstAckRange, ranges, ecn }
  | _ => none

/-- The time an input gives the packets it builds. -/
def Input.sendTimeMs : Input → Nat
  | .buildDatagrams clock _ => clock.nowMs
  | .buildPathControlDatagram _ _ nowMs _ _ => nowMs
  | _ => 0

/-- A packet that was sent. -/
structure SentMark where
  level : Level
  packetNumber : Nat
  sentTimeMs : Nat
  deriving DecidableEq

namespace Connection

/-- The packet numbers an ACK names, unless the ACK is refused. -/
def acceptedRanges (c : Connection) (arrival : AckArrival) : Option (List (Nat × Nat)) :=
  match acknowledgedRanges arrival.largest arrival.firstAckRange arrival.ranges with
  | .error _ => none
  | .ok ranges =>
    match (c.spaces arrival.level).loss.onAckReceived arrival.largest ranges arrival.clock with
    | .error _ => none
    | .ok _ => some ranges

def names (c : Connection) (arrival : AckArrival) (mark : SentMark) : Bool :=
  (c.acceptedRanges arrival).any fun ranges => decide (mark.level = arrival.level) &&
    isAcked mark.packetNumber arrival.largest ranges

def elicitsAck (c : Connection) (mark : SentMark) : Bool :=
  ((c.spaces mark.level).loss.sent.find? mark.packetNumber).any SentPacket.ackEliciting

def ackOutcome (c : Connection) (arrival : AckArrival) : Option (LossRecovery × AckResult) :=
  c.ackEvent arrival.level arrival.clock arrival.largest arrival.firstAckRange arrival.ranges

/-- The ACK event reports an ack-eliciting packet as lost. -/
def loses (c : Connection) (arrival : AckArrival) (mark : SentMark) : Bool :=
  (c.ackOutcome arrival).any fun event => decide (mark.level = arrival.level) &&
    decide (mark.packetNumber ∈ event.2.lost) && c.elicitsAck mark

/-- The ACK event calls `onPersistentCongestion`. -/
def declaresPersistentCongestion (c : Connection) (arrival : AckArrival) : Bool :=
  (c.ackOutcome arrival).any fun event => persistentCongestion arrival.level arrival.clock
    (c.losses arrival.level arrival.clock event.1 event.2)

end Connection

/-- A connection with every packet it sent, in order, those acknowledged so far and those
declared lost and not acknowledged since. -/
structure LossHistory where
  connection : Connection
  sent : List SentMark
  acked : List SentMark
  lost : List SentMark

namespace LossHistory

open Connection

def start (setup : Setup) : LossHistory :=
  { connection := .start setup, sent := [], acked := [], lost := [] }

def ackedAfter (h : LossHistory) (input : Input) : List SentMark :=
  h.acked ++ h.sent.filter fun mark => input.ack?.any fun arrival => h.connection.names arrival mark

def after (h : LossHistory) (input : Input) : LossHistory :=
  { connection := h.connection.perform input
    sent := h.sent ++ (h.connection.builds input).map fun packet =>
      ⟨packet.level, packet.packetNumber, input.sendTimeMs⟩
    acked := h.ackedAfter input
    lost := (h.lost ++ h.sent.filter fun mark =>
        input.ack?.any fun arrival => h.connection.loses arrival mark).filter fun mark =>
      decide (mark ∉ h.ackedAfter input) }

def execute (h : LossHistory) (inputs : List Input) : LossHistory := inputs.foldl after h

/-- Two lost packets were sent at least the duration apart, and no packet sent between them
has been acknowledged. -/
def Allows (h : LossHistory) (duration : Nat) : Prop :=
  ∃ before first between second later, h.sent = before ++ first :: (between ++ second :: later) ∧
    first ∈ h.lost ∧ second ∈ h.lost ∧ duration ≤ timeApart first.sentTimeMs second.sentTimeMs ∧
    ∀ mark ∈ between, mark ∉ h.acked

/-- Acknowledged before an ACK or by it. -/
def cut (h : LossHistory) (arrival : AckArrival) (ranges : List (Nat × Nat)) (mark : SentMark) :
    Bool :=
  decide (mark ∈ h.acked) || (decide (mark.level = arrival.level) &&
    isAcked mark.packetNumber arrival.largest ranges)

/-- Lost before an ACK, or outdated by it. -/
def gone (h : LossHistory) (arrival : AckArrival) (ranges : List (Nat × Nat)) (mark : SentMark) :
    Bool :=
  decide (mark ∈ h.lost) || (decide (mark.level = arrival.level) &&
    h.connection.outdated arrival.level arrival.clock arrival.largest ranges mark.packetNumber &&
    h.connection.elicitsAck mark)

/-- The acknowledged packets cut the sent ones into stretches, and the lost packets of one
stretch reach the duration by themselves. -/
def StretchSpans (h : LossHistory) (arrival : AckArrival) (ranges : List (Nat × Nat)) : Prop :=
  ∃ stretch ∈ h.sent.splitOnP (h.cut arrival ranges),
    (spanOf ((stretch.filter (h.gone arrival ranges)).map SentMark.sentTimeMs)).reaches
      arrival.clock.persistentDurationMs

variable {h : LossHistory} {arrival : AckArrival} {ranges : List (Nat × Nat)}

instance : Decidable (h.StretchSpans arrival ranges) := inferInstanceAs (Decidable (∃ _ ∈ _, _))

theorem stretchSpans_iff :
    h.StretchSpans arrival ranges ↔
      ∃ before first between second later,
        h.sent = before ++ first :: (between ++ second :: later) ∧
        h.gone arrival ranges first = true ∧ h.gone arrival ranges second = true ∧
        arrival.clock.persistentDurationMs ≤ timeApart first.sentTimeMs second.sentTimeMs ∧
        ∀ mark ∈ first :: (between ++ [second]), h.cut arrival ranges mark = false := by
  have paired : h.StretchSpans arrival ranges ↔ ∃ first second,
      (∃ stretch ∈ h.sent.splitOnP (h.cut arrival ranges), List.Sublist [first, second] stretch) ∧
      h.gone arrival ranges first = true ∧ h.gone arrival ranges second = true ∧
      arrival.clock.persistentDurationMs ≤ timeApart first.sentTimeMs second.sentTimeMs := by
    unfold StretchSpans
    simp only [spanOf_reaches_iff, pair_sublist_map, pair_sublist_filter]
    constructor
    · rintro ⟨stretch, member, _, _, ⟨first, second, ⟨order, firstGone, secondGone⟩, rfl, rfl⟩,
        apart⟩
      exact ⟨first, second, ⟨stretch, member, order⟩, firstGone, secondGone, apart⟩
    · rintro ⟨first, second, ⟨stretch, member, order⟩, firstGone, secondGone, apart⟩
      exact ⟨stretch, member, _, _, ⟨first, second, ⟨order, firstGone, secondGone⟩, rfl, rfl⟩,
        apart⟩
  rw [paired]
  simp only [pair_in_stretch_iff]
  constructor
  · rintro ⟨first, second, ⟨before, between, later, same, open_⟩, firstGone, secondGone, apart⟩
    exact ⟨before, first, between, second, later, same, firstGone, secondGone, apart, open_⟩
  · rintro ⟨before, first, between, second, later, same, firstGone, secondGone, apart, open_⟩
    exact ⟨first, second, ⟨before, between, later, same, open_⟩, firstGone, secondGone, apart⟩

theorem mem_acked_after (accepted : h.connection.acceptedRanges arrival = some ranges)
    (sent : mark ∈ h.sent) :
    mark ∈ (h.after arrival.input).acked ↔ h.cut arrival ranges mark = true := by
  change mark ∈ h.acked ++ h.sent.filter (h.connection.names arrival) ↔ _
  rw [cut, Bool.or_eq_true, decide_eq_true_eq, mem_append, mem_filter]
  simp [Connection.names, accepted, sent]

theorem accepted_outcome (accepted : h.connection.acceptedRanges arrival = some ranges) :
    ∃ event, h.connection.ackOutcome arrival = some event ∧
      (h.connection.spaces arrival.level).loss.onAckReceived arrival.largest ranges arrival.clock =
        .ok event := by
  unfold Connection.acceptedRanges at accepted
  unfold Connection.ackOutcome Connection.ackEvent
  cases decoded : acknowledgedRanges arrival.largest arrival.firstAckRange arrival.ranges with
  | error message =>
    rw [decoded] at accepted
    contradiction
  | ok named =>
    simp only [decoded] at accepted
    dsimp only
    cases received : (h.connection.spaces arrival.level).loss.onAckReceived arrival.largest named
        arrival.clock with
    | error message =>
      simp only [received] at accepted
      contradiction
    | ok event =>
      simp only [received, Option.some.injEq] at accepted
      subst accepted
      exact ⟨event, rfl, received⟩

theorem refused_outcome (refused : h.connection.acceptedRanges arrival = none) :
    h.connection.ackOutcome arrival = none := by
  unfold Connection.acceptedRanges at refused
  unfold Connection.ackOutcome Connection.ackEvent
  cases decoded : acknowledgedRanges arrival.largest arrival.firstAckRange arrival.ranges with
  | error message => rfl
  | ok named =>
    simp only [decoded] at refused
    dsimp only
    cases received : (h.connection.spaces arrival.level).loss.onAckReceived arrival.largest named
        arrival.clock with
    | error message => rfl
    | ok event =>
      simp only [received] at refused
      contradiction

theorem mem_lost_after (accepted : h.connection.acceptedRanges arrival = some ranges)
    (sent : mark ∈ h.sent) :
    mark ∈ (h.after arrival.input).lost ↔
      h.gone arrival ranges mark = true ∧ h.cut arrival ranges mark = false := by
  obtain ⟨event, outcome, received⟩ := accepted_outcome accepted
  change mark ∈ (h.lost ++ h.sent.filter (h.connection.loses arrival)).filter
    (fun mark => decide (mark ∉ (h.after arrival.input).acked)) ↔ _
  rw [mem_filter, decide_eq_true_eq, mem_acked_after accepted sent, Bool.not_eq_true, gone,
    Bool.or_eq_true, decide_eq_true_eq, mem_append, mem_filter, Connection.loses, outcome,
    Option.any_some]
  refine and_congr_left fun _ => or_congr_right ?_
  simp only [sent, true_and, Bool.and_eq_true, decide_eq_true_eq,
    Connection.mem_lost_iff received mark.packetNumber]

/-- After an accepted ACK the history allows the declaration exactly when one stretch spans
the duration. -/
theorem allows_after_iff (accepted : h.connection.acceptedRanges arrival = some ranges) :
    (h.after arrival.input).Allows arrival.clock.persistentDurationMs ↔
      h.StretchSpans arrival ranges := by
  have same : (h.after arrival.input).sent = h.sent := append_nil _
  rw [stretchSpans_iff, Allows, same]
  constructor
  · rintro ⟨before, first, between, second, later, order, firstLost, secondLost, apart, open_⟩
    have sent : ∀ mark ∈ first :: (between ++ [second]), mark ∈ h.sent := by
      intro mark member
      rw [order]
      simp only [mem_cons, mem_append, not_mem_nil, or_false] at member ⊢
      tauto
    obtain ⟨firstGone, firstOpen⟩ := (mem_lost_after accepted (sent first (by simp))).mp firstLost
    obtain ⟨secondGone, secondOpen⟩ :=
      (mem_lost_after accepted (sent second (by simp))).mp secondLost
    refine ⟨before, first, between, second, later, order, firstGone, secondGone, apart, ?_⟩
    intro mark member
    have here := sent mark member
    simp only [mem_cons, mem_append, not_mem_nil, or_false] at member
    rcases member with rfl | inside | rfl
    · exact firstOpen
    · exact Bool.eq_false_iff.mpr (mt (mem_acked_after accepted here).mpr (open_ mark inside))
    · exact secondOpen
  · rintro ⟨before, first, between, second, later, order, firstGone, secondGone, apart, open_⟩
    have sent : ∀ mark ∈ first :: (between ++ [second]), mark ∈ h.sent := by
      intro mark member
      rw [order]
      simp only [mem_cons, mem_append, not_mem_nil, or_false] at member ⊢
      tauto
    have lost : ∀ mark ∈ first :: (between ++ [second]), h.gone arrival ranges mark = true →
        mark ∈ (h.after arrival.input).lost := fun mark member goes =>
      (mem_lost_after accepted (sent mark member)).mpr ⟨goes, open_ mark member⟩
    refine ⟨before, first, between, second, later, order, lost first (by simp) firstGone,
      lost second (by simp) secondGone, apart, ?_⟩
    intro mark inside acked
    have member : mark ∈ first :: (between ++ [second]) := by simp [inside]
    have clear := open_ mark member
    rw [(mem_acked_after accepted (sent mark member)).mp acked] at clear
    contradiction

theorem declares_iff : h.connection.declaresPersistentCongestion arrival = true ↔
    ∃ ranges, h.connection.acceptedRanges arrival = some ranges ∧
      h.connection.SpansDuration arrival.level arrival.clock arrival.largest ranges := by
  unfold Connection.declaresPersistentCongestion
  cases accepted : h.connection.acceptedRanges arrival with
  | none =>
    rw [refused_outcome accepted]
    simp
  | some ranges =>
    obtain ⟨event, outcome, received⟩ := accepted_outcome accepted
    rw [outcome, Option.any_some, persistentCongestion_losses received]
    simp

end LossHistory

/-- In every run, an ACK event keeps to the rule exactly when the duration its lost packets
span is also spanned within one stretch without an acknowledged packet. -/
theorem persistentCongestion_allowed_iff (setup : Setup) (inputs : List Input)
    (arrival : AckArrival) :
    let h := (LossHistory.start setup).execute inputs
    (h.connection.declaresPersistentCongestion arrival = true →
        (h.after arrival.input).Allows arrival.clock.persistentDurationMs) ↔
      ∀ ranges, h.connection.acceptedRanges arrival = some ranges →
        h.connection.SpansDuration arrival.level arrival.clock arrival.largest ranges →
        h.StretchSpans arrival ranges := by
  dsimp only
  generalize (LossHistory.start setup).execute inputs = h
  rw [LossHistory.declares_iff]
  constructor
  · intro keeps ranges accepted spans
    exact (LossHistory.allows_after_iff accepted).mp (keeps ⟨ranges, accepted, spans⟩)
  · rintro holds ⟨ranges, accepted, spans⟩
    exact (LossHistory.allows_after_iff accepted).mpr (holds ranges accepted spans)

/-- The clock of a connection whose latest round trip took 100 ms: three times its probe
timeout is 975 ms. -/
def steadyClock (nowMs : Nat) : Clock :=
  { nowMs, lossTimeThresholdMs := 113, persistentDurationMs := 975, ptoMs := fun _ => 325 }

def sendByte (nowMs : Nat) : List Input :=
  [.sendStreamData 0 [7] false, .buildDatagrams (steadyClock nowMs) fun _ _ => true]

/-- Six packets, of which the second and the last arrive. -/
def gapRun : List Input :=
  .setLevelKeys .application ⟨true, 0⟩ ⟨true, 0⟩ ::
    [0, 600, 1200, 1200, 1200, 1200].flatMap sendByte

/-- Acknowledges the packets five and one. -/
def gapAck : AckArrival :=
  { level := .application, mode := .active, clock := steadyClock 1300, largest := 5, ackDelay := 0
    firstAckRange := 0, ranges := [⟨2, 0⟩], ecn := none }

theorem persistentCongestion_across_acked :
    let h := (LossHistory.start (.default .client)).execute gapRun
    h.connection.declaresPersistentCongestion gapAck = true ∧
      ¬ (h.after gapAck.input).Allows gapAck.clock.persistentDurationMs := by
  dsimp only
  refine ⟨by decide +kernel, ?_⟩
  rw [@LossHistory.allows_after_iff _ _ [(5, 5), (1, 1)] (by decide +kernel)]
  decide +kernel

end SwStack.Quic
