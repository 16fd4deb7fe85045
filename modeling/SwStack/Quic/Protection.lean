import SwStack.Quic.Leaves

/-! What an acknowledgement does to what opens packets: it may note that the current key phase
is acknowledged, and touches nothing else there. -/
namespace SwStack.Quic

open SwStack.Lib List

/-- The protection once an acknowledgement of the current key phase is noted. -/
def Protection.noteAck (protection : Protection) (acked : Bool) : Protection :=
  { protection with keys.currentPhaseTxAcked := protection.keys.currentPhaseTxAcked || acked }

theorem Protection.noteAck_false (protection : Protection) :
    protection.noteAck false = protection := by
  unfold noteAck
  rw [Bool.or_false]

namespace Connection

variable {c : Connection} {level : Level}

/-- Whether an ACK event acknowledges a packet of the current key phase. -/
def acksCurrentPhase (c : Connection) (level : Level) (result : AckResult) : Bool :=
  level = .application && result.newlyAcked.any fun packetNumber =>
    decide (c.keys.currentPhaseFirstTxPn ≤ packetNumber)

theorem protection_settleAck (c : Connection) (level : Level) (clock : Clock) (loss : LossRecovery)
    (result : AckResult) :
    (c.settleAck level clock loss result).protection =
      c.protection.noteAck (c.acksCurrentPhase level result) := by
  have tuned :
      (c.setSpace level { c.spaces level with loss := loss, probesPending := 0 }).protection =
      c.protection := protection_setSpace rfl
  have started : (c.startAck level loss result).protection =
      c.protection.noteAck (c.acksCurrentPhase level result) :=
    congrArg (fun protection : Protection =>
      protection.noteAck (c.acksCurrentPhase level result)) tuned
  have acknowledged : Leaves (· ≠ .protection) (c.startAck level loss result) _ :=
    .acknowledgeAll (by decide) level result.newlyAcked _
  exact (Leaves.detectPersistentCongestion _ _ _).sameProtection.trans
    ((Leaves.loseAll _ _ _ (_, ⟨0, 0, 0⟩)).sameProtection.trans
      (acknowledged.sameProtection.trans started))

theorem protection_processAckFrame (c : Connection) (level : Level) (clock : Clock)
    (largest firstAckRange : Nat) (wireRanges : List AckRange) :
    ∃ acked, (c.processAckFrame level clock largest firstAckRange wireRanges).1.protection =
        c.protection.noteAck acked ∧
      (acked = true → ∃ ranges loss result,
        acknowledgedRanges largest firstAckRange wireRanges = .ok ranges ∧
        (c.spaces level).loss.onAckReceived largest ranges clock = .ok (loss, result) ∧
        c.acksCurrentPhase level result = true) := by
  unfold processAckFrame
  cases decoded : acknowledgedRanges largest firstAckRange wireRanges with
  | error message => exact ⟨false, c.protection.noteAck_false.symm, by simp⟩
  | ok ranges =>
    dsimp only
    cases received : (c.spaces level).loss.onAckReceived largest ranges clock with
    | error message => exact ⟨false, c.protection.noteAck_false.symm, by simp⟩
    | ok outcome =>
      refine ⟨c.acksCurrentPhase level outcome.2, ?_, fun acked =>
        ⟨ranges, outcome.1, outcome.2, rfl, received, acked⟩⟩
      exact (Leaves.refreshInFlightFlag _ _).sameProtection.trans
        ((Leaves.retireAcknowledgedPeerStreams (by decide) _).sameProtection.trans
          (protection_settleAck _ _ _ _ _))

end Connection
end SwStack.Quic
