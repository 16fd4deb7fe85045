import SwStack.Quic.LossDetection

/-! Runs of loss recovery: packets are sent under fresh numbers and ACKs of any content
come in. A packet is tracked until one ACK event reports it, as acknowledged or as lost. -/
namespace SwStack.Quic

open SwStack.Lib List

inductive LossAction where
  | send (packetNumber : Nat) (packet : SentPacket)
  | ack (largestAcked ackDelayMs : Nat) (ranges : List (Nat × Nat)) (nowMs : Nat)

/-- A detector with what it has reported so far. -/
structure LossRun (ρ : Type) where
  detector : LossDetector ρ
  acked : List Nat
  lost : List Nat

namespace LossRun

variable {ρ : Type} (estimator : RttEstimator ρ)

def start (rtt : ρ) : LossRun ρ := { detector := ⟨rtt, none, ∅⟩, acked := [], lost := [] }

def step (run : LossRun ρ) : LossAction → LossRun ρ
  | .send packetNumber packet =>
    { run with detector := RttEstimator.onPacketSent run.detector packetNumber packet }
  | .ack largestAcked ackDelayMs ranges nowMs =>
    let outcome := estimator.onAckReceived run.detector largestAcked ackDelayMs ranges nowMs
    { detector := outcome.1
      acked := run.acked ++ outcome.2.1.newlyAcked
      lost := run.lost ++ outcome.2.1.lost }

def execute (run : LossRun ρ) (actions : List LossAction) : LossRun ρ :=
  actions.foldl (step estimator) run

/-- How often a packet number is tracked, reported as acknowledged and reported as lost. -/
def places (run : LossRun ρ) (packetNumber : Nat) : Nat :=
  (if run.detector.sent.contains packetNumber then 1 else 0) +
    run.acked.count packetNumber + run.lost.count packetNumber

end LossRun

theorem count_of_nodup {numbers : List Nat} (nodup : numbers.Nodup) (number : Nat) :
    numbers.count number = if number ∈ numbers then 1 else 0 := by
  split
  · rename_i member
    exact count_eq_one_of_mem nodup member
  · rename_i absent
    exact count_eq_zero_of_not_mem absent

theorem RttEstimator.Settles.places {ρ : Type} {estimator : RttEstimator ρ}
    {before : SortedMap Nat SentPacket} {largestAcked : Nat} {ranges : List (Nat × Nat)}
    {nowMs : Nat} {after : LossDetector ρ} {result : AckResult}
    (settles : estimator.Settles before largestAcked ranges nowMs after result)
    (packetNumber : Nat) :
    (if after.sent.contains packetNumber then 1 else 0) + result.newlyAcked.count packetNumber +
      result.lost.count packetNumber = if before.contains packetNumber then 1 else 0 := by
  have acked := settles.acked packetNumber
  have lost := settles.lost packetNumber
  rw [count_of_nodup settles.acked_nodup, count_of_nodup settles.lost_nodup,
    show after.sent.contains packetNumber = (after.sent.find? packetNumber).isSome from rfl,
    settles.left]
  by_cases wasAcked : packetNumber ∈ result.newlyAcked
  · have notLost : packetNumber ∉ result.lost := by
      intro member
      obtain ⟨_, _, unacked, _⟩ := lost.mp member
      rw [(acked.mp wasAcked).2] at unacked
      cases unacked
    simp [wasAcked, notLost, (acked.mp wasAcked).1]
  · by_cases wasLost : packetNumber ∈ result.lost
    · obtain ⟨packet, present, _⟩ := lost.mp wasLost
      simp [wasAcked, wasLost, SortedMap.contains, present]
    · cases present : before.find? packetNumber with
      | none => simp [wasAcked, wasLost, SortedMap.contains, present]
      | some packet => simp [wasAcked, wasLost, SortedMap.contains, present]

namespace LossRun

variable {ρ : Type} (estimator : RttEstimator ρ)

end LossRun

/-- Four packets, of which the last and the second are acknowledged. -/
def reordered : List LossAction :=
  [.send 0 ⟨0, true, 100⟩, .send 1 ⟨10, true, 100⟩, .send 2 ⟨60, false, 100⟩, .send 3 ⟨70, true, 100⟩,
    .ack 3 0 [(3, 3), (1, 1)] 100]

end SwStack.Quic
