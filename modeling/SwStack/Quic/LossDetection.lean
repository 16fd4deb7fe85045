import SwStack.Lib.Draining
import SwStack.Quic.Recovery

/-! The loops of loss recovery that take packets out of the tracked ones, as the code runs
them, and what an ACK means for one packet number alone. The round-trip estimator computes
in floating point: its update and its time threshold are parameters. -/
namespace SwStack.Quic

open SwStack.Lib List

structure RttEstimator (ρ : Type) where
  updateRtt : ρ → Nat → Nat → ρ
  timeLost : ρ → Nat → Nat → Bool

structure LossDetector (ρ : Type) where
  rtt : ρ
  largestAckedPacket : Option Nat
  sent : SortedMap Nat SentPacket

/-- The ends of a range, which the caller may give in either order. -/
def ordered (range : Nat × Nat) : Nat × Nat :=
  if range.2 < range.1 then (range.2, range.1) else range

def withinRange (packetNumber : Nat) (range : Nat × Nat) : Bool :=
  decide ((ordered range).1 ≤ packetNumber) && decide (packetNumber ≤ (ordered range).2)

/-- The plain definition of what an ACK acknowledges. -/
def isAcked (packetNumber largestAcked : Nat) (ranges : List (Nat × Nat)) : Bool :=
  if packetNumber = largestAcked then true else ranges.any (withinRange packetNumber)

/-- The search for an ack-eliciting packet up to the end of a range. -/
def anyElicitingUpTo (high : Nat) : List (Nat × SentPacket) → Bool
  | [] => false
  | entry :: rest =>
    if entry.1 ≤ high then entry.2.ackEliciting || anyElicitingUpTo high rest else false

/-- Takes out the tracked packets of one range, from its lower end on. -/
def takeRange (state : SortedMap Nat SentPacket × List Nat) (range : Nat × Nat) :
    SortedMap Nat SentPacket × List Nat :=
  SortedMap.drain (fun packetNumber => decide (packetNumber ≤ (ordered range).2)) (fun _ _ => true)
    (state.1.fromKey (ordered range).1) state

/-- Ranges come highest first and are walked backwards. The largest acknowledged packet
counts as acknowledged even when no range names it. -/
def takeRanges (sent : SortedMap Nat SentPacket) (largestAcked : Nat) (ranges : List (Nat × Nat)) :
    SortedMap Nat SentPacket × List Nat :=
  let taken := ranges.reverse.foldl takeRange (sent, [])
  match taken.1.find? largestAcked with
  | some _ => (taken.1.erase largestAcked, taken.2 ++ [largestAcked])
  | none => taken

namespace RttEstimator

variable {ρ : Type} (estimator : RttEstimator ρ)

/-- The packet and time thresholds of loss detection. -/
def lostBefore (rtt : ρ) (nowMs largestAcked packetNumber : Nat) (packet : SentPacket) : Bool :=
  decide (kPacketThreshold ≤ largestAcked - packetNumber) ||
    estimator.timeLost rtt nowMs packet.sentTimeMs

def takeLost (rtt : ρ) (nowMs largestAcked : Nat) (sent : SortedMap Nat SentPacket) :
    SortedMap Nat SentPacket × List Nat :=
  SortedMap.drain (fun packetNumber => decide (packetNumber < largestAcked))
    (estimator.lostBefore rtt nowMs largestAcked) sent.entries (sent, [])

/-- The steps after the last point where an ACK can be refused. -/
def commitAck (detector : LossDetector ρ) (largestAcked : Nat) (ranges : List (Nat × Nat))
    (nowMs : Nat) : LossDetector ρ × AckResult :=
  let acked := takeRanges detector.sent largestAcked ranges
  let lost := estimator.takeLost detector.rtt nowMs largestAcked acked.1
  ({ detector with
      largestAckedPacket := match detector.largestAckedPacket with
        | some largest => if largest < largestAcked then some largestAcked else some largest
        | none => some largestAcked
      sent := lost.1 },
    { newlyAcked := acked.2, lost := lost.2 })

def onAckReceived (detector : LossDetector ρ) (largestAcked ackDelayMs : Nat)
    (ranges : List (Nat × Nat)) (nowMs : Nat) : LossDetector ρ × AckResult × Option String :=
  match detector.sent.find? largestAcked with
  | some largest =>
    if largest.ackEliciting || ranges.any fun range =>
        anyElicitingUpTo (ordered range).2 (detector.sent.fromKey (ordered range).1) then
      if nowMs < largest.sentTimeMs then
        (detector, ⟨[], []⟩, some "QUIC ACK time precedes packet send time")
      else
        let rtt := estimator.updateRtt detector.rtt (nowMs - largest.sentTimeMs) ackDelayMs
        let committed :=
          estimator.commitAck { detector with rtt := rtt } largestAcked ranges nowMs
        (committed.1, committed.2, none)
    else
      let committed := estimator.commitAck detector largestAcked ranges nowMs
      (committed.1, committed.2, none)
  | none =>
    let committed := estimator.commitAck detector largestAcked ranges nowMs
    (committed.1, committed.2, none)

def onPacketSent (detector : LossDetector ρ) (packetNumber : Nat) (packet : SentPacket) :
    LossDetector ρ := { detector with sent := detector.sent.insert packetNumber packet }

end RttEstimator

theorem upTo_closed (bound : Nat) {low high : Nat} (below : low < high)
    (within : decide (high ≤ bound) = true) : decide (low ≤ bound) = true := by
  rw [decide_eq_true_eq] at within ⊢
  omega

theorem below_closed (bound : Nat) (below : low < high)
    (within : decide (high < bound) = true) : decide (low < bound) = true := by
  rw [decide_eq_true_eq] at within ⊢
  omega

variable {largestAcked : Nat} {ranges : List (Nat × Nat)}

theorem isAcked_eq_true_iff {packetNumber : Nat} : isAcked packetNumber largestAcked ranges = true ↔
      (∃ range ∈ ranges, withinRange packetNumber range = true) ∨ packetNumber = largestAcked := by
  unfold isAcked
  split
  · rename_i same
    exact iff_of_true rfl (.inr same)
  · rename_i different
    rw [any_eq_true, or_iff_left different]

theorem takeRange_drained {sent : SortedMap Nat SentPacket} {kind : Nat → SentPacket → Prop}
    {state : SortedMap Nat SentPacket × List Nat} (range : Nat × Nat)
    (drained : sent.Drained kind state) :
    sent.Drained (fun packetNumber packet =>
      kind packetNumber packet ∨ withinRange packetNumber range = true) (takeRange state range) := by
  refine (drained.drain_fromKey (ordered range).1 (upTo_closed _)).congr fun packetNumber packet _ => ?_
  simp [withinRange]

theorem takeRanges_drained (sent : SortedMap Nat SentPacket) (largestAcked : Nat)
    (ranges : List (Nat × Nat)) :
    sent.Drained (fun packetNumber _ => isAcked packetNumber largestAcked ranges = true)
      (takeRanges sent largestAcked ranges) := by
  have walk : ∀ (walked rest : List (Nat × Nat)) (state : SortedMap Nat SentPacket × List Nat),
      sent.Drained (fun packetNumber _ =>
        ∃ range ∈ walked, withinRange packetNumber range = true) state →
      sent.Drained (fun packetNumber _ =>
        ∃ range ∈ walked ++ rest, withinRange packetNumber range = true)
        (rest.foldl takeRange state) := by
    intro walked rest
    induction rest generalizing walked with
    | nil =>
      intro state drained
      rw [append_nil]
      exact drained
    | cons range rest ih =>
      intro state drained
      rw [← singleton_append, ← append_assoc, singleton_append, foldl_cons]
      refine ih (walked ++ [range]) _ ((takeRange_drained range drained).congr ?_)
      intro packetNumber _ _
      simp [or_and_right, exists_or]
  have taken := walk [] ranges.reverse (sent, [])
    ((SortedMap.Drained.start sent).congr (by simp))
  unfold takeRanges
  dsimp only
  cases present : (ranges.reverse.foldl takeRange (sent, [])).1.find? largestAcked with
  | some packet =>
    refine (taken.take present).congr fun packetNumber _ _ => ?_
    rw [isAcked_eq_true_iff]
    simp
  | none =>
    refine taken.congr fun packetNumber packet found => ?_
    rw [isAcked_eq_true_iff]
    simp only [nil_append, mem_reverse]
    constructor
    · exact .inl
    · rintro (named | rfl)
      · exact named
      · -- the largest one is tracked and not left, so a range has named it
        by_contra unnamed
        have left := taken.left_eq_some_iff.mpr ⟨found, by simpa using unnamed⟩
        rw [present] at left
        cases left

namespace RttEstimator

variable {ρ : Type} (estimator : RttEstimator ρ)

theorem takeLost_drained (rtt : ρ) (nowMs largestAcked : Nat) (sent : SortedMap Nat SentPacket) :
    sent.Drained (fun packetNumber packet => packetNumber < largestAcked ∧
        estimator.lostBefore rtt nowMs largestAcked packetNumber packet = true)
      (estimator.takeLost rtt nowMs largestAcked sent) := by
  refine (SortedMap.Drained.drain_all (below_closed _)).congr fun packetNumber packet _ => ?_
  rw [decide_eq_true_eq]

/-- The plain definition of an ACK event: each tracked packet is judged by itself. -/
structure Settles (before : SortedMap Nat SentPacket) (largestAcked : Nat)
    (ranges : List (Nat × Nat)) (nowMs : Nat) (after : LossDetector ρ) (result : AckResult) :
    Prop where
  acked_nodup : result.newlyAcked.Nodup
  acked : ∀ packetNumber, packetNumber ∈ result.newlyAcked ↔
    before.contains packetNumber = true ∧ isAcked packetNumber largestAcked ranges = true
  lost_nodup : result.lost.Nodup
  lost : ∀ packetNumber, packetNumber ∈ result.lost ↔
    ∃ packet, before.find? packetNumber = some packet ∧
      isAcked packetNumber largestAcked ranges = false ∧ packetNumber < largestAcked ∧
      estimator.lostBefore after.rtt nowMs largestAcked packetNumber packet = true
  left : ∀ packetNumber, after.sent.find? packetNumber =
    if packetNumber ∈ result.newlyAcked ∨ packetNumber ∈ result.lost then none
    else before.find? packetNumber

theorem commitAck_settles (detector : LossDetector ρ) (largestAcked : Nat)
    (ranges : List (Nat × Nat)) (nowMs : Nat) :
    estimator.Settles detector.sent largestAcked ranges nowMs
      (estimator.commitAck detector largestAcked ranges nowMs).1
      (estimator.commitAck detector largestAcked ranges nowMs).2 := by
  have acked := takeRanges_drained detector.sent largestAcked ranges
  have lost := estimator.takeLost_drained detector.rtt nowMs largestAcked
    (takeRanges detector.sent largestAcked ranges).1
  constructor
  · exact acked.nodup
  · intro packetNumber
    rw [show (estimator.commitAck detector largestAcked ranges nowMs).2.newlyAcked =
      (takeRanges detector.sent largestAcked ranges).2 from rfl, acked.mem, SortedMap.contains,
      Option.isSome_iff_exists]
    exact exists_and_right
  · exact lost.nodup
  · intro packetNumber
    refine (lost.mem packetNumber).trans (exists_congr fun packet => ?_)
    rw [acked.left_eq_some_iff, Bool.not_eq_true, and_assoc]
    exact Iff.rfl
  · intro packetNumber
    refine (lost.left packetNumber).trans ?_
    rw [acked.left]
    change (if packetNumber ∈ (estimator.takeLost _ _ _ _).2 then _ else _) =
      if packetNumber ∈ (takeRanges _ _ _).2 ∨ packetNumber ∈ (estimator.takeLost _ _ _ _).2 then _
        else _
    split
    · rename_i member
      rw [if_pos (Or.inr member)]
    · rename_i kept
      simp only [or_iff_left kept]

theorem onAckReceived_cases (detector : LossDetector ρ) (largestAcked ackDelayMs : Nat)
    (ranges : List (Nat × Nat)) (nowMs : Nat) :
    (∃ message, estimator.onAckReceived detector largestAcked ackDelayMs ranges nowMs =
      (detector, ⟨[], []⟩, some message)) ∨
    ∃ rtt, estimator.onAckReceived detector largestAcked ackDelayMs ranges nowMs =
      ((estimator.commitAck { detector with rtt := rtt } largestAcked ranges nowMs).1,
        (estimator.commitAck { detector with rtt := rtt } largestAcked ranges nowMs).2, none) := by
  unfold onAckReceived
  split
  · split
    · split
      · exact .inl ⟨_, rfl⟩
      · exact .inr ⟨_, rfl⟩
    · exact .inr ⟨detector.rtt, rfl⟩
  · exact .inr ⟨detector.rtt, rfl⟩

theorem onAckReceived_settles {detector after : LossDetector ρ}
    (accepted : estimator.onAckReceived detector largestAcked ackDelayMs ranges nowMs =
      (after, result, none)) :
    estimator.Settles detector.sent largestAcked ranges nowMs after result := by
  rcases estimator.onAckReceived_cases detector largestAcked ackDelayMs ranges nowMs with
    ⟨message, refused⟩ | ⟨rtt, committed⟩
  · rw [refused] at accepted
    cases accepted
  · rw [committed] at accepted
    cases accepted
    exact estimator.commitAck_settles { detector with rtt := rtt } largestAcked ranges nowMs

theorem takeWhile_fromKey (sent : SortedMap Nat SentPacket) (range : Nat × Nat) :
    ((sent.fromKey (ordered range).1).takeWhile fun entry =>
      decide (entry.1 ≤ (ordered range).2)) = LossRecovery.inRange sent range := by
  have ends : (ordered range).1 = min range.1 range.2 ∧ (ordered range).2 = max range.1 range.2 := by
    unfold ordered
    split
    · constructor <;> dsimp only <;> omega
    · constructor <;> omega
  rw [SortedMap.fromKey_eq_filter, SortedMap.takeWhile_eq_filter
    (fun packetNumber => decide (packetNumber ≤ (ordered range).2))
    (sent.ordered.filter _) (upTo_closed _), filter_filter, LossRecovery.inRange]
  refine filter_congr fun entry _ => ?_
  rw [ends.1, ends.2, Bool.decide_and, Bool.and_comm]

theorem takeRange_eq (state : SortedMap Nat SentPacket × List Nat) (range : Nat × Nat) :
    takeRange state range =
      (((LossRecovery.inRange state.1 range).map Prod.fst).foldl SortedMap.erase state.1,
        state.2 ++ (LossRecovery.inRange state.1 range).map Prod.fst) := by
  rw [takeRange, SortedMap.drain_eq]
  simp only [takeWhile_fromKey, filter_true]

theorem takeRanges_eq (sent : SortedMap Nat SentPacket) (largestAcked : Nat)
    (ranges : List (Nat × Nat)) :
    takeRanges sent largestAcked ranges = LossRecovery.takeAcked sent largestAcked ranges := by
  have step : takeRange = fun state range =>
      (((LossRecovery.inRange state.1 range).map Prod.fst).foldl SortedMap.erase state.1,
        state.2 ++ (LossRecovery.inRange state.1 range).map Prod.fst) :=
    funext fun state => funext fun range => takeRange_eq state range
  unfold takeRanges LossRecovery.takeAcked
  rw [step]
  dsimp only
  unfold SortedMap.contains
  split
  · rename_i packet present
    rw [present]
    rfl
  · rename_i absent
    rw [absent]
    rfl

theorem anyElicitingUpTo_eq (high : Nat) (entries : List (Nat × SentPacket)) :
    anyElicitingUpTo high entries =
      (entries.takeWhile fun entry => decide (entry.1 ≤ high)).any fun entry =>
        entry.2.ackEliciting := by
  induction entries with
  | nil => rfl
  | cons entry rest ih =>
    rw [anyElicitingUpTo]
    by_cases within : entry.1 ≤ high
    · simp [within, ih]
    · simp [within]

theorem commitAck_eq {detector : LossDetector ρ} {loss : LossRecovery} {clock : Clock}
    (largestAcked : Nat) (ranges : List (Nat × Nat)) (hasRttSample : Bool)
    (tracked : loss.sent = detector.sent)
    (threshold : ∀ sentTimeMs, estimator.timeLost detector.rtt clock.nowMs sentTimeMs =
      decide (sentTimeMs + clock.lossTimeThresholdMs ≤ clock.nowMs)) :
    let committed := estimator.commitAck detector largestAcked ranges clock.nowMs
    let detected :=
      LossRecovery.onAckReceived.detect loss largestAcked ranges clock hasRttSample
    committed.2 = detected.2 ∧ committed.1.sent = detected.1.sent := by
  have judged : estimator.lostBefore detector.rtt clock.nowMs largestAcked =
      LossRecovery.isLost clock largestAcked := by
    funext packetNumber packet
    rw [lostBefore, threshold, LossRecovery.isLost]
  have lost : estimator.takeLost detector.rtt clock.nowMs largestAcked
      (takeRanges detector.sent largestAcked ranges).1 =
        (((((LossRecovery.takeAcked loss.sent largestAcked ranges).1.entries.filter fun entry =>
          decide (entry.1 < largestAcked) &&
            LossRecovery.isLost clock largestAcked entry.1 entry.2).map Prod.fst).foldl
          SortedMap.erase (LossRecovery.takeAcked loss.sent largestAcked ranges).1),
        ((LossRecovery.takeAcked loss.sent largestAcked ranges).1.entries.filter fun entry =>
          decide (entry.1 < largestAcked) &&
            LossRecovery.isLost clock largestAcked entry.1 entry.2).map Prod.fst) := by
    rw [takeLost, SortedMap.drain_eq, judged, takeRanges_eq, ← tracked,
      SortedMap.takeWhile_eq_filter (fun packetNumber => decide (packetNumber < largestAcked))
        (SortedMap.ordered _) (below_closed _)]
    dsimp only
    rw [filter_filter, nil_append]
    simp only [Bool.and_comm]
  dsimp only
  unfold commitAck LossRecovery.onAckReceived.detect
  dsimp only
  rw [lost, takeRanges_eq, tracked]
  exact ⟨rfl, rfl⟩

/-- The same refusals, and the same packets out of an accepted ACK. -/
theorem onAckReceived_eq {detector : LossDetector ρ} {loss : LossRecovery} {clock : Clock}
    (largestAcked ackDelayMs : Nat) (ranges : List (Nat × Nat))
    (tracked : loss.sent = detector.sent)
    (threshold : ∀ sentTimeMs, estimator.timeLost
        (estimator.onAckReceived detector largestAcked ackDelayMs ranges clock.nowMs).1.rtt
        clock.nowMs sentTimeMs =
      decide (sentTimeMs + clock.lossTimeThresholdMs ≤ clock.nowMs)) :
    let outcome := estimator.onAckReceived detector largestAcked ackDelayMs ranges clock.nowMs
    match loss.onAckReceived largestAcked ranges clock with
    | .error message => outcome = (detector, ⟨[], []⟩, some message)
    | .ok (after, result) => outcome.2 = (result, none) ∧ outcome.1.sent = after.sent := by
  have eliciting : ∀ range : Nat × Nat,
      anyElicitingUpTo (ordered range).2 (detector.sent.fromKey (ordered range).1) =
        (LossRecovery.inRange loss.sent range).any fun entry => entry.2.ackEliciting := by
    intro range
    rw [anyElicitingUpTo_eq, takeWhile_fromKey, tracked]
  have committed : ∀ (rtt : ρ) (hasRttSample : Bool),
      (∀ sentTimeMs, estimator.timeLost rtt clock.nowMs sentTimeMs =
        decide (sentTimeMs + clock.lossTimeThresholdMs ≤ clock.nowMs)) → _ :=
    fun rtt hasRttSample same => @commitAck_eq ρ estimator { detector with rtt := rtt } loss clock
      largestAcked ranges hasRttSample tracked same
  unfold onAckReceived at threshold ⊢
  unfold LossRecovery.onAckReceived
  dsimp only at threshold ⊢
  simp only [eliciting] at threshold ⊢
  rw [tracked] at threshold ⊢
  cases present : detector.sent.find? largestAcked with
  | none =>
    simp only [present] at threshold ⊢
    obtain ⟨result, sent⟩ := committed detector.rtt loss.hasRttSample threshold
    exact ⟨Prod.ext result rfl, sent⟩
  | some largest =>
    simp only [present] at threshold ⊢
    generalize (largest.ackEliciting || ranges.any fun range =>
      (LossRecovery.inRange detector.sent range).any fun entry => entry.2.ackEliciting) = sampled
      at threshold ⊢
    cases sampled with
    | false =>
      obtain ⟨result, sent⟩ := committed detector.rtt loss.hasRttSample threshold
      exact ⟨Prod.ext result rfl, sent⟩
    | true =>
      simp only [if_true] at threshold ⊢
      by_cases early : clock.nowMs < largest.sentTimeMs
      · simp only [if_pos early]
      · simp only [if_neg early] at threshold ⊢
        obtain ⟨result, sent⟩ := committed _ true threshold
        exact ⟨Prod.ext result rfl, sent⟩

end RttEstimator
end SwStack.Quic
