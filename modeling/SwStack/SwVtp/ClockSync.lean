import Mathlib.Data.Real.Basic
import Mathlib.Algebra.Order.Round
import Mathlib.Tactic.Linarith

/-! The offset between the two clocks, from one ping and its pong. A signed operation is `none`
where its result is no `int64_t`. -/
namespace SwStack.SwVtp

def int64Min : Int := -2 ^ 63

def int64Max : Int := 2 ^ 63 - 1

def int64? (value : Int) : Option Int :=
  if int64Min ≤ value ∧ value ≤ int64Max then some value else none

def swVtpReadSignedClockDelta (lhs rhs : UInt64) : Option Int :=
  if rhs ≤ lhs then
    let delta := lhs - rhs
    if 0x7FFFFFFFFFFFFFFF < delta then some int64Max else some delta.toNat
  else
    let delta := rhs - lhs
    if 0x7FFFFFFFFFFFFFFF < delta then some int64Min else int64? (-delta.toNat)

def swVtpPositiveDelta (newer older : UInt64) : UInt64 :=
  if older ≤ newer then newer - older else 0

def swVtpClockConfidencePercent (oneWayUncertaintyUs : UInt64) : UInt8 :=
  let uncertaintyMs := oneWayUncertaintyUs / 1000
  if 90 ≤ uncertaintyMs then 10 else (100 - uncertaintyMs).toUInt8

def swVtpAverageClockDeltas (lhs rhs : Int) : Option Int := do
  let halves ← int64? (lhs.tdiv 2 + rhs.tdiv 2)
  let rests ← int64? (lhs.tmod 2 + rhs.tmod 2)
  int64? (halves + rests.tdiv 2)

structure SwVtpClockSyncSample where
  syncId : UInt32 := 0
  clientSendTimeUs : UInt64 := 0
  serverReceiveTimeUs : UInt64 := 0
  serverSendTimeUs : UInt64 := 0
  clientReceiveTimeUs : UInt64 := 0

structure SwVtpClockEstimate where
  valid : Bool := false
  serverToClientOffsetUs : Int := 0
  rttUs : UInt64 := 0
  serverProcessingUs : UInt64 := 0
  networkRttUs : UInt64 := 0
  oneWayUncertaintyUs : UInt64 := 0
  confidencePercent : UInt8 := 0

def swVtpEstimateClock (sample : SwVtpClockSyncSample) : Option SwVtpClockEstimate :=
  if sample.syncId = 0 ∨ sample.clientReceiveTimeUs < sample.clientSendTimeUs ∨
      sample.serverSendTimeUs < sample.serverReceiveTimeUs then some {}
  else
    let totalRttUs := swVtpPositiveDelta sample.clientReceiveTimeUs sample.clientSendTimeUs
    let serverProcessingUs := swVtpPositiveDelta sample.serverSendTimeUs sample.serverReceiveTimeUs
    if totalRttUs < serverProcessingUs then some {}
    else do
      let left ← swVtpReadSignedClockDelta sample.clientSendTimeUs sample.serverReceiveTimeUs
      let right ← swVtpReadSignedClockDelta sample.clientReceiveTimeUs sample.serverSendTimeUs
      let offset ← swVtpAverageClockDeltas left right
      let networkRttUs := totalRttUs - serverProcessingUs
      some
        { valid := true
          serverToClientOffsetUs := offset
          rttUs := totalRttUs
          serverProcessingUs
          networkRttUs
          oneWayUncertaintyUs := networkRttUs / 2
          confidencePercent := swVtpClockConfidencePercent (networkRttUs / 2) }

/-- The inner `none` refuses the time. -/
def swVtpServerTimeToClientTime (serverTimeUs : UInt64) (estimate : SwVtpClockEstimate) :
    Option (Option UInt64) :=
  if !estimate.valid then some none
  else
    let offset := estimate.serverToClientOffsetUs
    if 0 ≤ offset then
      let unsignedOffset := UInt64.ofNat offset.toNat
      if 0xFFFFFFFFFFFFFFFF - unsignedOffset < serverTimeUs then some none
      else some (some (serverTimeUs + unsignedOffset))
    else do
      let negated ← int64? (-offset)
      let unsignedOffset := UInt64.ofNat negated.toNat
      if serverTimeUs < unsignedOffset then some none
      else some (some (serverTimeUs - unsignedOffset))

theorem int64?_eq (low : int64Min ≤ value) (high : value ≤ int64Max) : int64? value = some value :=
  if_pos ⟨low, high⟩

/-- The nearest `int64_t`. -/
def saturated (value : Int) : Int := max int64Min (min value int64Max)

theorem swVtpReadSignedClockDelta_eq (lhs rhs : UInt64) :
    swVtpReadSignedClockDelta lhs rhs = some (saturated (lhs.toNat - rhs.toNat)) := by
  have left := lhs.toNat_lt
  have right := rhs.toNat_lt
  have top : (0x7FFFFFFFFFFFFFFF : UInt64).toNat = 2 ^ 63 - 1 := rfl
  rw [swVtpReadSignedClockDelta, saturated, int64Min, int64Max]
  split
  · rename_i order
    have delta := UInt64.toNat_sub_of_le _ _ order
    rw [UInt64.le_iff_toNat_le] at order
    simp only [UInt64.lt_iff_toNat_lt, delta, top]
    split <;> congr 1 <;> omega
  · rename_i order
    have delta := UInt64.toNat_sub_of_le rhs lhs (UInt64.le_of_lt (UInt64.not_le.mp order))
    rw [UInt64.le_iff_toNat_le] at order
    simp only [UInt64.lt_iff_toNat_lt, delta, top]
    split
    · congr 1
      omega
    · rw [int64?_eq] <;> simp only [int64Min, int64Max, Option.some_inj] <;> omega

/-- Halving goes towards zero. -/
theorem tdiv_two_add_tmod (value : Int) : 2 * value.tdiv 2 + value.tmod 2 = value ∧
    (0 ≤ value → 0 ≤ value.tmod 2 ∧ value.tmod 2 ≤ 1) ∧
    (value ≤ 0 → -1 ≤ value.tmod 2 ∧ value.tmod 2 ≤ 0) := by
  refine ⟨Int.mul_tdiv_add_tmod value 2, fun positive => ?_, fun negative => ?_⟩
  · rw [Int.tmod_eq_emod_of_nonneg positive]
    omega
  · rw [← neg_neg value, Int.neg_tmod, Int.tmod_eq_emod_of_nonneg (by omega)]
    omega

theorem swVtpAverageClockDeltas_eq (lhs rhs : Int) : ∃ average,
    swVtpAverageClockDeltas (saturated lhs) (saturated rhs) = some average ∧
    (2 * average - (saturated lhs + saturated rhs)).natAbs ≤ 1 ∧
    (average = int64Min ↔ lhs ≤ int64Min ∧ rhs ≤ int64Min) := by
  have inside (value : Int) : -2 ^ 63 ≤ saturated value ∧ saturated value < 2 ^ 63 ∧
      (value ≤ -2 ^ 63 ↔ saturated value = -2 ^ 63) := by
    rw [saturated, int64Min, int64Max]
    omega
  obtain ⟨lowLeft, highLeft, leftmost⟩ := inside lhs
  obtain ⟨lowRight, highRight, rightmost⟩ := inside rhs
  rw [int64Min, leftmost, rightmost]
  generalize saturated lhs = left at *
  generalize saturated rhs = right at *
  have first := tdiv_two_add_tmod left
  have second := tdiv_two_add_tmod right
  have rest := tdiv_two_add_tmod (left.tmod 2 + right.tmod 2)
  refine ⟨left.tdiv 2 + right.tdiv 2 + (left.tmod 2 + right.tmod 2).tdiv 2, ?_, by omega, by omega⟩
  rw [swVtpAverageClockDeltas, int64?_eq, Option.bind_eq_bind, Option.bind_some, int64?_eq,
    Option.bind_some, int64?_eq]
  all_goals simp only [int64Min, int64Max]; omega

namespace SwVtpClockSyncSample

variable (sample : SwVtpClockSyncSample)

/-- What the client's clock shows more than the server's on the way out, the transit included. -/
def outwardUs : Int := sample.clientSendTimeUs.toNat - sample.serverReceiveTimeUs.toNat

def homewardUs : Int := sample.clientReceiveTimeUs.toNat - sample.serverSendTimeUs.toNat

/-- What the estimate asks of a sample. -/
structure Answered : Prop where
  identified : sample.syncId ≠ 0
  client : sample.clientSendTimeUs ≤ sample.clientReceiveTimeUs
  server : sample.serverReceiveTimeUs ≤ sample.serverSendTimeUs
  within : sample.serverSendTimeUs - sample.serverReceiveTimeUs ≤
    sample.clientReceiveTimeUs - sample.clientSendTimeUs

/-- The client's clock is the server's plus `offset`, and nothing arrives before it is sent. -/
structure Exchange (offset : ℝ) : Prop where
  identified : sample.syncId ≠ 0
  outward : sample.clientSendTimeUs.toNat ≤ sample.serverReceiveTimeUs.toNat + offset
  processed : sample.serverReceiveTimeUs ≤ sample.serverSendTimeUs
  homeward : sample.serverSendTimeUs.toNat + offset ≤ sample.clientReceiveTimeUs.toNat
  small : ∀ time ∈ [sample.clientSendTimeUs, sample.serverReceiveTimeUs, sample.serverSendTimeUs,
    sample.clientReceiveTimeUs], time.toNat < 2 ^ 63

/-- No subtraction wraps, and the offset is half the sum of the two differences. -/
structure Estimated (estimate : SwVtpClockEstimate) : Prop where
  valid : estimate.valid = true
  rtt : estimate.rttUs.toNat + sample.clientSendTimeUs.toNat = sample.clientReceiveTimeUs.toNat
  processing : estimate.serverProcessingUs.toNat + sample.serverReceiveTimeUs.toNat =
    sample.serverSendTimeUs.toNat
  network : estimate.networkRttUs.toNat + estimate.serverProcessingUs.toNat = estimate.rttUs.toNat
  uncertainty : estimate.oneWayUncertaintyUs.toNat = estimate.networkRttUs.toNat / 2
  halved : (2 * estimate.serverToClientOffsetUs -
    (saturated sample.outwardUs + saturated sample.homewardUs)).natAbs ≤ 1

variable {sample}

theorem swVtpEstimateClock_eq (answered : sample.Answered) :
    ∃ estimate, swVtpEstimateClock sample = some estimate ∧ sample.Estimated estimate ∧
      (estimate.serverToClientOffsetUs = int64Min ↔ sample.homewardUs ≤ int64Min) := by
  obtain ⟨identified, client, server, within⟩ := answered
  have rtt := UInt64.toNat_sub_of_le _ _ client
  have processing := UInt64.toNat_sub_of_le _ _ server
  have network := UInt64.toNat_sub_of_le _ _ within
  have accepted : ¬(sample.syncId = 0 ∨ sample.clientReceiveTimeUs < sample.clientSendTimeUs ∨
      sample.serverSendTimeUs < sample.serverReceiveTimeUs) :=
    not_or.mpr ⟨identified, not_or.mpr ⟨UInt64.not_lt.mpr client, UInt64.not_lt.mpr server⟩⟩
  obtain ⟨offset, averaged, halved, least⟩ :=
    swVtpAverageClockDeltas_eq sample.outwardUs sample.homewardUs
  simp only [swVtpEstimateClock, if_neg accepted, swVtpPositiveDelta, if_pos client, if_pos server,
    if_neg (UInt64.not_lt.mpr within), swVtpReadSignedClockDelta_eq, Option.bind_eq_bind,
    Option.bind_some]
  rw [← outwardUs, ← homewardUs, averaged]
  rw [UInt64.le_iff_toNat_le] at client server within
  refine ⟨_, rfl, ⟨rfl, ?_, ?_, ?_, UInt64.toNat_div _ _, halved⟩, least.trans ?_⟩
  · exact rtt ▸ Nat.sub_add_cancel client
  · exact processing ▸ Nat.sub_add_cancel server
  · exact network ▸ Nat.sub_add_cancel within
  · simp only [outwardUs, homewardUs]
    omega

theorem swVtpEstimateClock_refused (other : ¬sample.Answered) :
    swVtpEstimateClock sample = some {} := by
  rw [swVtpEstimateClock]
  split
  · rfl
  rename_i accepted
  simp only [not_or, UInt64.not_lt] at accepted
  obtain ⟨identified, client, server⟩ := accepted
  rw [swVtpPositiveDelta, if_pos client, swVtpPositiveDelta, if_pos server]
  exact if_pos (UInt64.not_le.mp fun within => other ⟨identified, client, server, within⟩)

theorem Exchange.answered (exchange : sample.Exchange offset) : sample.Answered := by
  obtain ⟨identified, outward, processed, homeward, -⟩ := exchange
  have spent : (sample.clientSendTimeUs.toNat + sample.serverSendTimeUs.toNat : ℝ) ≤
      sample.serverReceiveTimeUs.toNat + sample.clientReceiveTimeUs.toNat := by
    linarith
  norm_cast at spent
  have server := UInt64.le_iff_toNat_le.mp processed
  have client : sample.clientSendTimeUs ≤ sample.clientReceiveTimeUs := by
    rw [UInt64.le_iff_toNat_le]
    omega
  refine ⟨identified, client, processed, ?_⟩
  rw [UInt64.le_iff_toNat_le, UInt64.toNat_sub_of_le _ _ client,
    UInt64.toNat_sub_of_le _ _ processed]
  omega

/-- The true offset lies between the two differences, which are `networkRttUs` apart. -/
theorem Estimated.abs_sub_le {offset : ℝ} (estimated : sample.Estimated estimate)
    (exchange : sample.Exchange offset) :
    |estimate.serverToClientOffsetUs - offset| ≤ ((estimate.networkRttUs.toNat + 1) / 2 : ℕ) := by
  obtain ⟨-, rtt, processing, network, -, halved⟩ := estimated
  have clientSend := exchange.small sample.clientSendTimeUs (by simp)
  have serverReceive := exchange.small sample.serverReceiveTimeUs (by simp)
  have serverSend := exchange.small sample.serverSendTimeUs (by simp)
  have clientReceive := exchange.small sample.clientReceiveTimeUs (by simp)
  generalize slack : (estimate.networkRttUs.toNat + 1) / 2 = half
  simp only [saturated, outwardUs, homewardUs, int64Min, int64Max] at halved
  have below : ((estimate.serverToClientOffsetUs + sample.serverReceiveTimeUs.toNat : ℤ) : ℝ) ≤
      ((sample.clientSendTimeUs.toNat + half : ℕ) : ℝ) := by
    exact_mod_cast (by omega)
  have above : ((sample.clientReceiveTimeUs.toNat : ℕ) : ℝ) ≤
      ((estimate.serverToClientOffsetUs + sample.serverSendTimeUs.toNat + half : ℤ) : ℝ) := by
    exact_mod_cast (by omega)
  push_cast at below above
  exact abs_le.mpr ⟨by linarith [exchange.homeward], by linarith [exchange.outward]⟩

end SwVtpClockSyncSample

open SwVtpClockSyncSample

/-- A time is refused exactly where the exact one is no `uint64_t`. -/
theorem swVtpServerTimeToClientTime_eq {estimate : SwVtpClockEstimate}
    (valid : estimate.valid = true) (low : int64Min < estimate.serverToClientOffsetUs)
    (high : estimate.serverToClientOffsetUs ≤ int64Max) (serverTimeUs : UInt64) :
    ∃ answer, swVtpServerTimeToClientTime serverTimeUs estimate = some answer ∧
      ∀ clientTimeUs, answer = some clientTimeUs ↔
        (clientTimeUs.toNat : Int) = serverTimeUs.toNat + estimate.serverToClientOffsetUs := by
  have server := serverTimeUs.toNat_lt
  have top : (0xFFFFFFFFFFFFFFFF : UInt64).toNat = 2 ^ 64 - 1 := rfl
  rw [int64Min] at low
  rw [int64Max] at high
  rw [swVtpServerTimeToClientTime, valid, Bool.not_true, if_neg Bool.false_ne_true]
  have cast (value : Int) (inside : value ≤ 2 ^ 63) :
      (UInt64.ofNat value.toNat).toNat = value.toNat :=
    UInt64.toNat_ofNat_of_lt' (show _ < 2 ^ 64 by omega)
  have forward := cast _ (high.trans (by decide))
  have backward := cast (-estimate.serverToClientOffsetUs) (by omega)
  dsimp only
  split
  · have room := UInt64.toNat_sub_of_le 0xFFFFFFFFFFFFFFFF
      (UInt64.ofNat estimate.serverToClientOffsetUs.toNat) (by
        rw [UInt64.le_iff_toNat_le]
        omega)
    simp only [UInt64.lt_iff_toNat_lt, room, forward, top]
    split
    · refine ⟨none, rfl, fun clientTimeUs => iff_of_false nofun ?_⟩
      have client := clientTimeUs.toNat_lt
      omega
    · refine ⟨_, rfl, fun clientTimeUs => ?_⟩
      rw [Option.some_inj, ← UInt64.toNat_inj, UInt64.toNat_add, forward, Nat.mod_eq_of_lt]
      all_goals omega
  · rw [int64?_eq (by rw [int64Min]; omega) (by rw [int64Max]; omega), Option.bind_eq_bind,
      Option.bind_some]
    split
    · rename_i early
      rw [UInt64.lt_iff_toNat_lt, backward] at early
      exact ⟨none, rfl, fun clientTimeUs => iff_of_false nofun (by omega)⟩
    · rename_i later
      rw [UInt64.not_lt] at later
      refine ⟨_, rfl, fun clientTimeUs => ?_⟩
      rw [Option.some_inj, ← UInt64.toNat_inj, UInt64.toNat_sub_of_le _ _ later, backward]
      rw [UInt64.le_iff_toNat_le, backward] at later
      omega

/-- Nothing overflows, and the estimate is within half the network time of the truth. -/
structure Synchronises (sample : SwVtpClockSyncSample) (estimate : SwVtpClockEstimate) : Prop where
  estimated : estimate.valid = true → sample.Estimated estimate
  converted : ∀ serverTimeUs, ∃ answer,
    swVtpServerTimeToClientTime serverTimeUs estimate = some answer ∧
      ∀ clientTimeUs, answer = some clientTimeUs ↔ estimate.valid = true ∧
        (clientTimeUs.toNat : Int) = serverTimeUs.toNat + estimate.serverToClientOffsetUs
  valid : ∀ offset, sample.Exchange offset → estimate.valid = true
  bounded : ∀ offset, sample.Exchange offset →
    |estimate.serverToClientOffsetUs - offset| ≤ ((estimate.networkRttUs.toNat + 1) / 2 : ℕ)
  useful : ∀ offset, sample.Exchange offset → ∀ serverTimeUs clientTimeUs,
    swVtpServerTimeToClientTime serverTimeUs estimate = some (some clientTimeUs) →
    |clientTimeUs.toNat - (serverTimeUs.toNat + offset)| ≤ estimate.oneWayUncertaintyUs.toNat + 1

/-- It fails where both differences lie below what an `int64_t` holds. -/
theorem synchronises_iff (sample : SwVtpClockSyncSample) :
    (∃ estimate, swVtpEstimateClock sample = some estimate ∧ Synchronises sample estimate) ↔
      ¬(sample.Answered ∧
        sample.clientReceiveTimeUs.toNat + 2 ^ 63 ≤ sample.serverSendTimeUs.toNat) := by
  by_cases answered : sample.Answered
  · obtain ⟨estimate, made, estimated, least⟩ := swVtpEstimateClock_eq answered
    have far : sample.homewardUs ≤ int64Min ↔
        sample.clientReceiveTimeUs.toNat + 2 ^ 63 ≤ sample.serverSendTimeUs.toNat := by
      rw [homewardUs, int64Min]
      omega
    rw [and_iff_right answered, ← far, ← least]
    constructor
    · rintro ⟨other, again, synchronises⟩ lowest
      obtain rfl := Option.some_inj.mp (made.symm.trans again)
      obtain ⟨answer, converted, -⟩ := synchronises.converted 0
      rw [swVtpServerTimeToClientTime, estimated.valid, lowest] at converted
      cases converted
    · intro above
      have halved := estimated.halved
      simp only [saturated, int64Min, int64Max] at above halved
      have exact := swVtpServerTimeToClientTime_eq estimated.valid
        (by rw [int64Min]; omega) (by rw [int64Max]; omega)
      refine ⟨estimate, made, fun _ => estimated, fun serverTimeUs => ?_,
        fun _ _ => estimated.valid, fun _ => estimated.abs_sub_le,
        fun offset exchange serverTimeUs clientTimeUs converted => ?_⟩
      · obtain ⟨answer, converted, shifted⟩ := exact serverTimeUs
        rw [estimated.valid]
        simpa only [true_and] using ⟨answer, converted, shifted⟩
      · obtain ⟨answer, same, shifted⟩ := exact serverTimeUs
        rw [same, Option.some_inj, shifted] at converted
        have shifted : (clientTimeUs.toNat : ℝ) =
            serverTimeUs.toNat + estimate.serverToClientOffsetUs := by
          exact_mod_cast converted
        rw [shifted, add_sub_add_left_eq_sub, estimated.uncertainty]
        refine (estimated.abs_sub_le exchange).trans ?_
        exact_mod_cast (by omega)
  · refine iff_of_true ⟨{}, swVtpEstimateClock_refused answered, nofun,
      fun serverTimeUs => ⟨none, rfl, ?_⟩, ?_, ?_, ?_⟩ fun both => answered both.1
    · exact fun clientTimeUs => iff_of_false nofun fun both => Bool.false_ne_true both.1
    all_goals exact fun offset exchange => absurd exchange.answered answered

theorem synchronises_fails : ¬∀ sample, ∃ estimate, swVtpEstimateClock sample = some estimate ∧
    Synchronises sample estimate := by
  intro all
  obtain ⟨estimate, made, synchronises⟩ := all ⟨1, 1000, 2 ^ 63 + 3000, 2 ^ 63 + 3000, 2000⟩
  obtain ⟨answer, converted, -⟩ := synchronises.converted 0
  have overflow : (swVtpEstimateClock
      ⟨1, 1000, 2 ^ 63 + 3000, 2 ^ 63 + 3000, 2000⟩).bind
      (swVtpServerTimeToClientTime 0) = none := by decide +kernel
  rw [made, Option.bind_some, converted] at overflow
  cases overflow

end SwStack.SwVtp
