import Mathlib

/-! The search for the largest datagram that a path carries whole. A bisection between the base
size and a ceiling, driven by what becomes of the probe packets. -/
namespace SwStack.Quic

/-- The floor of every path. -/
def kBasePmtu : Int := 1200

def kMaxProbes : Int := 3

inductive DplpmtudState where
  | disabled
  | searching
  | complete
  | error
  deriving DecidableEq, Repr

structure Dplpmtud where
  state : DplpmtudState := .disabled
  low : Int := kBasePmtu
  high : Int := kBasePmtu
  pmtu : Int := kBasePmtu
  probeSize : Int := 0
  probeCount : Int := 0
  deriving DecidableEq, Repr

namespace Dplpmtud

def start (_ : Dplpmtud) (maxPmtu : Int) : Dplpmtud :=
  let high := if kBasePmtu < maxPmtu then maxPmtu else kBasePmtu
  { state := if kBasePmtu < high then .searching else .complete
    low := kBasePmtu
    high := high
    pmtu := kBasePmtu
    probeSize := 0
    probeCount := 0 }

def candidate (d : Dplpmtud) : Int := d.low + (d.high - d.low + 1) / 2

def nextProbeSize (d : Dplpmtud) : Int × Dplpmtud :=
  if d.state ≠ .searching then (0, d)
  else
    let probed := if d.probeSize = 0 then { d with probeSize := d.candidate } else d
    (probed.probeSize, probed)

def advance (d : Dplpmtud) : Dplpmtud :=
  if d.high ≤ d.low then { d with state := .complete, probeSize := 0 }
  else if d.candidate ≤ d.pmtu then { d with state := .complete, probeSize := 0 }
  else { d with probeSize := d.candidate }

def onProbeAcked (d : Dplpmtud) (size : Int) : Dplpmtud :=
  if size ≠ d.probeSize then d
  else advance { d with
    pmtu := if d.pmtu < size then size else d.pmtu
    low := size
    probeSize := 0
    probeCount := 0 }

def onProbeLost (d : Dplpmtud) (size : Int) : Dplpmtud :=
  if size ≠ d.probeSize then d
  else if kMaxProbes ≤ d.probeCount + 1 then
    advance { d with high := size - 1, probeSize := 0, probeCount := 0 }
  else { d with probeCount := d.probeCount + 1 }

def onBlackholeDetected (d : Dplpmtud) : Dplpmtud :=
  let high := if kBasePmtu < d.pmtu then d.pmtu - 1 else kBasePmtu
  { state := if kBasePmtu < high then .searching else .complete
    low := kBasePmtu
    high := high
    pmtu := kBasePmtu
    probeSize := 0
    probeCount := 0 }

/-- What the connection reports to the search. -/
inductive Event where
  | poll
  | acked (size : Int)
  | lost (size : Int)
  | blackhole
  | restart (maxPmtu : Int)

def step (d : Dplpmtud) : Event → Dplpmtud
  | .poll => d.nextProbeSize.2
  | .acked size => d.onProbeAcked size
  | .lost size => d.onProbeLost size
  | .blackhole => d.onBlackholeDetected
  | .restart maxPmtu => d.start maxPmtu

def run (d : Dplpmtud) (events : List Event) : Dplpmtud := events.foldl step d

/-- The events that are about the probe in flight; the other acks and losses are stale. -/
def answers (d : Dplpmtud) : Event → Bool
  | .acked size => size = d.probeSize
  | .lost size => size = d.probeSize
  | _ => false

def answerCount : Dplpmtud → List Event → Nat
  | _, [] => 0
  | d, event :: events => (d.answers event).toNat + answerCount (d.step event) events

/-- No packet of no bytes is ever answered: without a probe in flight every answer is stale. -/
def Answerable (d : Dplpmtud) (event : Event) : Prop := d.answers event = true → 0 < d.probeSize

/-- A path of this size delivers every probe that fits within the allowed attempts, and no
larger one ever. -/
def Truthful (pathMtu : Int) (d : Dplpmtud) (event : Event) : Prop :=
  Answerable d event ∧
  match event with
  | .acked size => size = d.probeSize → size ≤ pathMtu
  | .lost size => size = d.probeSize → size ≤ pathMtu → d.probeCount + 1 < kMaxProbes
  | _ => True

def restarts : Event → Bool
  | .restart _ => true
  | _ => false

/-- Neither a new start nor a black hole interrupts the search. -/
def continues : Event → Bool
  | .poll | .acked _ | .lost _ => true
  | .blackhole | .restart _ => false

def Along (allowed : Dplpmtud → Event → Prop) : Dplpmtud → List Event → Prop
  | _, [] => True
  | d, event :: events => allowed d event ∧ Along allowed (d.step event) events

instance (d : Dplpmtud) (event : Event) : Decidable (Answerable d event) :=
  inferInstanceAs (Decidable (_ → _))

instance (pathMtu : Int) (d : Dplpmtud) : (event : Event) → Decidable (Truthful pathMtu d event)
  | .poll => inferInstanceAs (Decidable (_ ∧ True))
  | .acked size =>
    inferInstanceAs (Decidable (Answerable d (.acked size) ∧ (size = d.probeSize → size ≤ pathMtu)))
  | .lost size =>
    inferInstanceAs (Decidable (Answerable d (.lost size) ∧
      (size = d.probeSize → size ≤ pathMtu → d.probeCount + 1 < kMaxProbes)))
  | .blackhole => inferInstanceAs (Decidable (_ ∧ True))
  | .restart _ => inferInstanceAs (Decidable (_ ∧ True))

instance (allowed : Dplpmtud → Event → Prop) [∀ d event, Decidable (allowed d event)] :
    (d : Dplpmtud) → (events : List Event) → Decidable (Along allowed d events)
  | _, [] => inferInstanceAs (Decidable True)
  | d, event :: events =>
    have := instDecidableAlong allowed (d.step event) events
    inferInstanceAs (Decidable (allowed d event ∧ Along allowed (d.step event) events))

variable {d : Dplpmtud} {event : Event} {events : List Event} {ceiling pathMtu size : Int}

/-- The confirmed size is the lower bound, and a probe in flight lies between the bounds. -/
structure Bracketed (ceiling : Int) (d : Dplpmtud) : Prop where
  confirmed : d.low = d.pmtu
  base : kBasePmtu ≤ d.pmtu
  ordered : d.pmtu ≤ d.high
  below : d.high ≤ ceiling
  probe : d.probeSize = 0 ∨ d.pmtu < d.probeSize ∧ d.probeSize ≤ d.high
  counted : 0 ≤ d.probeCount ∧ d.probeCount < kMaxProbes
  phase : d.state = .searching ∧ d.low < d.high ∨
    d.state = .complete ∧ d.low = d.high ∧ d.probeSize = 0

theorem candidate_above (apart : d.low < d.high) : d.low < d.candidate := by
  unfold candidate
  omega

theorem candidate_below (apart : d.low < d.high) : d.candidate ≤ d.high := by
  unfold candidate
  omega

theorem uncounted_few : 0 ≤ (0 : Int) ∧ (0 : Int) < kMaxProbes := by decide

theorem start_bracketed (d : Dplpmtud) (maxPmtu : Int) :
    Bracketed (max maxPmtu kBasePmtu) (d.start maxPmtu) := by
  unfold start
  dsimp only
  by_cases larger : kBasePmtu < maxPmtu
  · rw [if_pos larger, if_pos larger]
    exact ⟨rfl, le_refl _, le_of_lt larger, le_max_left _ _, .inl rfl, uncounted_few,
      .inl ⟨rfl, larger⟩⟩
  · rw [if_neg larger, if_neg (lt_irrefl _)]
    exact ⟨rfl, le_refl _, le_refl _, le_max_right _ _, .inl rfl, uncounted_few,
      .inr ⟨rfl, rfl, rfl⟩⟩

theorem onBlackholeDetected_eq (d : Dplpmtud) :
    d.onBlackholeDetected = d.start (d.pmtu - 1) := by
  unfold onBlackholeDetected start
  have same : (if kBasePmtu < d.pmtu then d.pmtu - 1 else kBasePmtu) =
      if kBasePmtu < d.pmtu - 1 then d.pmtu - 1 else kBasePmtu := by
    split <;> split <;> omega
  rw [same]

theorem advance_bracketed (confirmed : d.low = d.pmtu) (base : kBasePmtu ≤ d.pmtu)
    (ordered : d.pmtu ≤ d.high) (below : d.high ≤ ceiling)
    (uncounted : d.probeCount = 0) (searching : d.state = .searching) :
    Bracketed ceiling d.advance := by
  have counted : 0 ≤ d.probeCount ∧ d.probeCount < kMaxProbes := uncounted ▸ uncounted_few
  unfold advance
  by_cases met : d.high ≤ d.low
  · rw [if_pos met]
    exact ⟨confirmed, base, ordered, below, .inl rfl, counted,
      .inr ⟨rfl, le_antisymm (confirmed ▸ ordered) met, rfl⟩⟩
  · have apart : d.low < d.high := lt_of_not_ge met
    have above := candidate_above apart
    rw [if_neg met, if_neg (by omega)]
    exact ⟨confirmed, base, ordered, below, .inr ⟨confirmed ▸ above, candidate_below apart⟩,
      counted, .inl ⟨searching, apart⟩⟩

theorem advance_low (d : Dplpmtud) : d.advance.low = d.low := by
  unfold advance
  split
  · rfl
  · split <;> rfl

theorem advance_high (d : Dplpmtud) : d.advance.high = d.high := by
  unfold advance
  split
  · rfl
  · split <;> rfl

theorem advance_pmtu (d : Dplpmtud) : d.advance.pmtu = d.pmtu := by
  unfold advance
  split
  · rfl
  · split <;> rfl

theorem advance_probeCount (d : Dplpmtud) : d.advance.probeCount = d.probeCount := by
  unfold advance
  split
  · rfl
  · split <;> rfl

namespace Bracketed

theorem in_flight (bracketed : Bracketed ceiling d) (positive : 0 < d.probeSize) :
    d.state = .searching ∧ d.pmtu < d.probeSize ∧ d.probeSize ≤ d.high := by
  obtain unprobed | between := bracketed.probe
  · omega
  · obtain ⟨searching, _⟩ | ⟨_, _, unprobed⟩ := bracketed.phase
    · exact ⟨searching, between⟩
    · omega

theorem nextProbeSize_bracketed (bracketed : Bracketed ceiling d) :
    Bracketed ceiling d.nextProbeSize.2 := by
  unfold nextProbeSize
  split
  · exact bracketed
  · rename_i searching
    have searching := not_not.mp searching
    dsimp only
    split
    · obtain ⟨_, apart⟩ | ⟨complete, _⟩ := bracketed.phase
      · exact ⟨bracketed.confirmed, bracketed.base, bracketed.ordered, bracketed.below,
          .inr ⟨bracketed.confirmed ▸ candidate_above apart, candidate_below apart⟩,
          bracketed.counted, .inl ⟨searching, apart⟩⟩
      · rw [searching] at complete
        cases complete
    · exact bracketed

theorem nextProbeSize_between (bracketed : Bracketed ceiling d) (offered : d.nextProbeSize.1 ≠ 0) :
    d.pmtu < d.nextProbeSize.1 ∧ d.nextProbeSize.1 ≤ d.high := by
  unfold nextProbeSize at offered ⊢
  split at offered
  · exact absurd rfl offered
  · rename_i searching
    rw [if_neg searching]
    dsimp only at offered ⊢
    split
    · obtain ⟨_, apart⟩ | ⟨complete, _⟩ := bracketed.phase
      · exact ⟨bracketed.confirmed ▸ candidate_above apart, candidate_below apart⟩
      · exact absurd complete (by simp [not_not.mp searching])
    · rename_i probing
      exact bracketed.probe.resolve_left probing

theorem nextProbeSize_ne_zero (bracketed : Bracketed ceiling d) (unfinished : d.state ≠ .complete) :
    d.nextProbeSize.1 ≠ 0 := by
  obtain ⟨searching, apart⟩ | ⟨complete, _⟩ := bracketed.phase
  · unfold nextProbeSize
    rw [if_neg (not_not.mpr searching)]
    dsimp only
    split
    · have above := candidate_above apart
      have base := bracketed.base
      have confirmed := bracketed.confirmed
      unfold kBasePmtu at base
      dsimp only
      omega
    · assumption
  · exact absurd complete unfinished

theorem onProbeAcked_bracketed (bracketed : Bracketed ceiling d)
    (answerable : size = d.probeSize → 0 < d.probeSize) :
    Bracketed ceiling (d.onProbeAcked size) := by
  unfold onProbeAcked
  split
  · exact bracketed
  · rename_i same
    have same := not_not.mp same
    obtain ⟨searching, above, below⟩ := bracketed.in_flight (answerable same)
    have grown : d.pmtu < size := by omega
    have base := bracketed.base
    rw [if_pos grown]
    exact advance_bracketed rfl (show kBasePmtu ≤ size by omega) (show size ≤ d.high by omega)
      bracketed.below rfl searching

theorem onProbeLost_bracketed (bracketed : Bracketed ceiling d)
    (answerable : size = d.probeSize → 0 < d.probeSize) :
    Bracketed ceiling (d.onProbeLost size) := by
  unfold onProbeLost
  split
  · exact bracketed
  · rename_i same
    have same := not_not.mp same
    obtain ⟨searching, above, below⟩ := bracketed.in_flight (answerable same)
    have highBelow := bracketed.below
    split
    · exact advance_bracketed bracketed.confirmed bracketed.base
        (show d.pmtu ≤ size - 1 by omega) (show size - 1 ≤ ceiling by omega) rfl searching
    · rename_i more
      have counted := bracketed.counted
      exact ⟨bracketed.confirmed, bracketed.base, bracketed.ordered, highBelow, bracketed.probe,
        ⟨show 0 ≤ d.probeCount + 1 by omega, lt_of_not_ge more⟩, bracketed.phase⟩

theorem step_bracketed (bracketed : Bracketed ceiling d) (answerable : Answerable d event)
    (continued : continues event = true) : Bracketed ceiling (d.step event) := by
  cases event with
  | poll => exact bracketed.nextProbeSize_bracketed
  | acked size =>
    exact bracketed.onProbeAcked_bracketed fun same => answerable (decide_eq_true same)
  | lost size =>
    exact bracketed.onProbeLost_bracketed fun same => answerable (decide_eq_true same)
  | blackhole => cases continued
  | restart maxPmtu => cases continued

theorem raise (bracketed : Bracketed ceiling d) (raised : ceiling ≤ larger) : Bracketed larger d :=
  { bracketed with below := bracketed.below.trans raised }

theorem onBlackholeDetected_bracketed (d : Dplpmtud) :
    Bracketed (max (d.pmtu - 1) kBasePmtu) d.onBlackholeDetected := by
  rw [onBlackholeDetected_eq]
  exact start_bracketed d _

theorem run_bracketed (bracketed : Bracketed ceiling d)
    (answerable : Along Answerable d events)
    (unraised : events.all (fun event => !restarts event) = true) :
    Bracketed ceiling (d.run events) := by
  induction events generalizing d with
  | nil => exact bracketed
  | cons event events ih =>
    obtain ⟨first, rest⟩ := answerable
    rw [List.all_cons, Bool.and_eq_true] at unraised
    refine ih ?_ rest unraised.2
    cases event with
    | poll => exact bracketed.step_bracketed first rfl
    | acked size => exact bracketed.step_bracketed first rfl
    | lost size => exact bracketed.step_bracketed first rfl
    | blackhole =>
      have ordered := bracketed.ordered
      have below := bracketed.below
      have base := bracketed.base
      exact (onBlackholeDetected_bracketed d).raise (by omega)
    | restart maxPmtu => cases unraised.1

end Bracketed

/-- The path carries the confirmed size, and no size above the upper bound that was asked for. -/
structure Fits (pathMtu ceiling : Int) (d : Dplpmtud) : Prop where
  carried : d.pmtu ≤ pathMtu
  reached : min pathMtu ceiling ≤ d.high

theorem start_fits (d : Dplpmtud) (maxPmtu : Int) (base : kBasePmtu ≤ pathMtu) :
    Fits pathMtu (max maxPmtu kBasePmtu) (d.start maxPmtu) := by
  unfold start
  dsimp only
  refine ⟨base, ?_⟩
  split <;> simp only [inf_le_iff, sup_le_iff] <;> omega

theorem Fits.step_fits (fits : Fits pathMtu ceiling d) (truthful : Truthful pathMtu d event)
    (continued : continues event = true) : Fits pathMtu ceiling (d.step event) := by
  have carried := fits.carried
  cases event with
  | poll =>
    change Fits pathMtu ceiling d.nextProbeSize.2
    unfold nextProbeSize
    split
    · exact fits
    · dsimp only
      split <;> exact ⟨carried, fits.reached⟩
  | acked size =>
    change Fits pathMtu ceiling (d.onProbeAcked size)
    unfold onProbeAcked
    split
    · exact fits
    · rename_i same
      have passes := truthful.2 (not_not.mp same)
      refine ⟨?_, ?_⟩
      · rw [advance_pmtu]
        dsimp only
        split <;> assumption
      · rw [advance_high]
        exact fits.reached
  | lost size =>
    change Fits pathMtu ceiling (d.onProbeLost size)
    unfold onProbeLost
    split
    · exact fits
    · rename_i same
      have refused := truthful.2 (not_not.mp same)
      split
      · rename_i last
        -- a size that fits is not lost for the last allowed time
        have tooLarge : pathMtu < size := by
          by_contra small
          exact absurd (refused (by omega)) (not_lt.mpr last)
        refine ⟨?_, ?_⟩
        · rw [advance_pmtu]
          exact carried
        · rw [advance_high]
          exact (min_le_left _ _).trans (show pathMtu ≤ size - 1 by omega)
      · exact ⟨carried, fits.reached⟩
  | blackhole => cases continued
  | restart maxPmtu => cases continued

/-- What a run of truthful answers keeps, whatever the ceiling of the search in progress. -/
def Sound (pathMtu : Int) (d : Dplpmtud) : Prop :=
  ∃ ceiling, Bracketed ceiling d ∧ Fits pathMtu ceiling d

theorem start_sound (d : Dplpmtud) (maxPmtu : Int) (base : kBasePmtu ≤ pathMtu) :
    Sound pathMtu (d.start maxPmtu) :=
  ⟨_, start_bracketed d maxPmtu, start_fits d maxPmtu base⟩

theorem Sound.step_sound (sound : Sound pathMtu d) (base : kBasePmtu ≤ pathMtu)
    (truthful : Truthful pathMtu d event) : Sound pathMtu (d.step event) := by
  obtain ⟨ceiling, bracketed, fits⟩ := sound
  cases event with
  | poll => exact ⟨_, bracketed.step_bracketed truthful.1 rfl, fits.step_fits truthful rfl⟩
  | acked size => exact ⟨_, bracketed.step_bracketed truthful.1 rfl, fits.step_fits truthful rfl⟩
  | lost size => exact ⟨_, bracketed.step_bracketed truthful.1 rfl, fits.step_fits truthful rfl⟩
  | blackhole =>
    change Sound pathMtu d.onBlackholeDetected
    rw [onBlackholeDetected_eq]
    exact start_sound d _ base
  | restart maxPmtu => exact start_sound d maxPmtu base

theorem Sound.run_sound (sound : Sound pathMtu d) (base : kBasePmtu ≤ pathMtu)
    (truthful : Along (Truthful pathMtu) d events) : Sound pathMtu (d.run events) := by
  induction events generalizing d with
  | nil => exact sound
  | cons event events ih => exact ih (sound.step_sound base truthful.1) truthful.2

/-- The answers that the search can still take. -/
def remaining (d : Dplpmtud) : Int := kMaxProbes * (d.high - d.low) - d.probeCount

theorem Bracketed.complete_of_remaining (bracketed : Bracketed ceiling d)
    (finished : d.remaining ≤ 0) : d.state = .complete := by
  obtain ⟨_, apart⟩ | ⟨complete, _⟩ := bracketed.phase
  · have counted := bracketed.counted
    unfold remaining kMaxProbes at *
    omega
  · exact complete

theorem Bracketed.step_remaining (bracketed : Bracketed ceiling d)
    (answerable : Answerable d event) (continued : continues event = true) :
    (d.step event).remaining + (d.answers event).toNat ≤ d.remaining := by
  have counted := bracketed.counted
  have confirmed := bracketed.confirmed
  cases event with
  | poll =>
    change d.nextProbeSize.2.remaining + 0 ≤ d.remaining
    unfold nextProbeSize
    split
    · exact le_of_eq (Int.add_zero _)
    · dsimp only
      split <;> exact le_of_eq (Int.add_zero _)
  | acked size =>
    change (d.onProbeAcked size).remaining + (decide (size = d.probeSize)).toNat ≤ d.remaining
    unfold onProbeAcked
    by_cases same : size = d.probeSize
    · obtain ⟨_, above, _⟩ := bracketed.in_flight (answerable (decide_eq_true same))
      rw [if_neg (not_not.mpr same), decide_eq_true same]
      unfold remaining
      rw [advance_low, advance_high, advance_probeCount]
      dsimp only [Bool.toNat_true]
      unfold kMaxProbes at *
      omega
    · rw [if_pos same, decide_eq_false same]
      exact le_of_eq (Int.add_zero _)
  | lost size =>
    change (d.onProbeLost size).remaining + (decide (size = d.probeSize)).toNat ≤ d.remaining
    unfold onProbeLost
    by_cases same : size = d.probeSize
    · obtain ⟨_, _, below⟩ := bracketed.in_flight (answerable (decide_eq_true same))
      rw [if_neg (not_not.mpr same), decide_eq_true same]
      dsimp only [Bool.toNat_true]
      unfold remaining
      split
      · rw [advance_low, advance_high, advance_probeCount]
        dsimp only
        unfold kMaxProbes at *
        omega
      · dsimp only
        omega
    · rw [if_pos same, decide_eq_false same]
      exact le_of_eq (Int.add_zero _)
  | blackhole => cases continued
  | restart maxPmtu => cases continued

/-- An uninterrupted search keeps its ceiling and counts down with every answer. -/
theorem run_uninterrupted (bracketed : Bracketed ceiling d) (fits : Fits pathMtu ceiling d)
    (truthful : Along (Truthful pathMtu) d events) (continued : events.all continues = true) :
    Bracketed ceiling (d.run events) ∧ Fits pathMtu ceiling (d.run events) ∧
      (d.run events).remaining + answerCount d events ≤ d.remaining := by
  induction events generalizing d with
  | nil => exact ⟨bracketed, fits, le_of_eq (Int.add_zero _)⟩
  | cons event events ih =>
    rw [List.all_cons, Bool.and_eq_true] at continued
    obtain ⟨first, rest⟩ := truthful
    have counted := bracketed.step_remaining first.1 continued.1
    obtain ⟨bracketed', fits', fewer⟩ :=
      ih (bracketed.step_bracketed first.1 continued.1) (fits.step_fits first continued.1) rest
        continued.2
    refine ⟨bracketed', fits', ?_⟩
    unfold answerCount
    rw [Nat.cast_add]
    change ((d.step event).run events).remaining + _ ≤ _
    omega

theorem start_remaining (d : Dplpmtud) (maxPmtu : Int) :
    (d.start maxPmtu).remaining = kMaxProbes * (max maxPmtu kBasePmtu - kBasePmtu) := by
  unfold start remaining
  dsimp only
  rw [Int.sub_zero]
  split <;> congr 2 <;> omega

theorem Bracketed.complete_pmtu (bracketed : Bracketed ceiling d) (fits : Fits pathMtu ceiling d)
    (complete : d.state = .complete) : d.pmtu = min pathMtu ceiling := by
  obtain ⟨searching, _⟩ | ⟨_, met, _⟩ := bracketed.phase
  · rw [complete] at searching
    cases searching
  · have carried := fits.carried
    have reached := fits.reached
    have confirmed := bracketed.confirmed
    have below := bracketed.below
    omega

/-- The search stays within what the path carries, offers only sizes that can teach something,
finds the path's size after finitely many answers and never tries a faulty size again. -/
theorem search_finds_path_mtu (prior : Dplpmtud) {maxPmtu : Int} (base : kBasePmtu ≤ pathMtu)
    (truthful : Along (Truthful pathMtu) (prior.start maxPmtu) events) :
    let d := (prior.start maxPmtu).run events
    (kBasePmtu ≤ d.pmtu ∧ d.pmtu ≤ pathMtu) ∧
    (d.nextProbeSize.1 ≠ 0 → d.pmtu < d.nextProbeSize.1 ∧ d.nextProbeSize.1 ≤ d.high) ∧
    (events.all continues = true →
      (d.state ≠ .complete → d.nextProbeSize.1 ≠ 0) ∧
      (kMaxProbes * (max maxPmtu kBasePmtu - kBasePmtu) ≤
        answerCount (prior.start maxPmtu) events → d.state = .complete) ∧
      (d.state = .complete → d.pmtu = min pathMtu (max maxPmtu kBasePmtu))) ∧
    ∀ later, Along Answerable d.onBlackholeDetected later →
      later.all (fun event => !restarts event) = true →
      (d.onBlackholeDetected.run later).nextProbeSize.1 ≠ 0 →
      (d.onBlackholeDetected.run later).nextProbeSize.1 < d.pmtu := by
  intro d
  obtain ⟨_, bracketed, fits⟩ := (start_sound prior maxPmtu base).run_sound base truthful
  refine ⟨⟨bracketed.base, fits.carried⟩, bracketed.nextProbeSize_between, ?_, ?_⟩
  · intro continued
    obtain ⟨bracketed, fits, fewer⟩ := run_uninterrupted (start_bracketed prior maxPmtu)
      (start_fits prior maxPmtu base) truthful continued
    rw [start_remaining] at fewer
    refine ⟨bracketed.nextProbeSize_ne_zero, ?_, bracketed.complete_pmtu fits⟩
    intro enough
    exact bracketed.complete_of_remaining (by omega)
  · intro later answerable unraised offered
    have later := (Bracketed.onBlackholeDetected_bracketed d).run_bracketed answerable unraised
    obtain ⟨above, below⟩ := later.nextProbeSize_between offered
    have smallest := later.base
    have lowered := later.below
    omega

/-- A path of 1280 bytes under a ceiling of 1300, with a stale ack between the answers. -/
theorem search_finds_path_mtu_narrow :
    let events : List Event := [.poll, .acked 1250, .acked 1200, .poll, .acked 1275, .lost 1288,
      .lost 1288, .lost 1288, .lost 1281, .lost 1281, .lost 1281, .acked 1278, .acked 1279,
      .acked 1280]
    ((({} : Dplpmtud).start 1300).run events).state = .complete ∧
    ((({} : Dplpmtud).start 1300).run events).pmtu = 1280 ∧
    (kBasePmtu ≤ ((({} : Dplpmtud).start 1300).run events).pmtu ∧
      ((({} : Dplpmtud).start 1300).run events).pmtu ≤ 1280) :=
  ⟨by decide, by decide, (search_finds_path_mtu {} (by decide) (by decide)).1⟩

end Dplpmtud
end SwStack.Quic
