import SwStack.Quic.Receive

/-! Which packet numbers an ACK tracker holds: insertion adds one number, the window keeps
the last 1024 below the largest, and an ACK frame names exactly what is held. -/
namespace SwStack.Quic

open List

namespace AckTracker

def Holds (ranges : List LocalAckRange) (number : Nat) : Prop :=
  ∃ range ∈ ranges, range.low ≤ number ∧ number ≤ range.high

/-- Proper ranges from the highest down, no two of which touch. -/
structure Descending (ranges : List LocalAckRange) : Prop where
  proper : ∀ range ∈ ranges, range.low ≤ range.high
  apart : ranges.Pairwise fun above below => below.high + 1 < above.low

theorem not_holds_nil (number : Nat) : ¬ Holds [] number := by
  rintro ⟨range, member, -⟩
  exact not_mem_nil member

variable {rest : List LocalAckRange} {number : Nat}

theorem holds_cons {range : LocalAckRange} : Holds (range :: rest) number ↔
      (range.low ≤ number ∧ number ≤ range.high) ∨ Holds rest number := by
  simp [Holds]

theorem Descending.nil : Descending [] := ⟨by simp, .nil⟩

/-- The first range is above every number of the others, and does not touch them. -/
theorem descending_cons {range : LocalAckRange} : Descending (range :: rest) ↔
      range.low ≤ range.high ∧ (∀ number, Holds rest number → number + 1 < range.low) ∧
        Descending rest := by
  constructor
  · intro descending
    obtain ⟨above, apart⟩ := pairwise_cons.mp descending.apart
    refine ⟨descending.proper range mem_cons_self, ?_, ?_, apart⟩
    · rintro number ⟨other, member, -, below⟩
      have gap := above other member
      omega
    · intro other member
      exact descending.proper other (mem_cons_of_mem _ member)
  · rintro ⟨proper, above, descending⟩
    constructor
    · intro other member
      rcases mem_cons.mp member with rfl | member
      · exact proper
      · exact descending.proper other member
    · refine pairwise_cons.mpr ⟨fun other member => ?_, descending.apart⟩
      exact above other.high ⟨other, member, descending.proper other member, le_rfl⟩

/-- What an insertion makes of the ranges it walks over. -/
structure Inserts (number : Nat) (ranges result : List LocalAckRange) : Prop where
  descending : Descending result
  holds : ∀ other, Holds result other ↔ Holds ranges other ∨ other = number

theorem Inserts.cons {number : Nat} {range : LocalAckRange} {ranges result : List LocalAckRange}
    (inserts : Inserts number ranges result) (descending : Descending (range :: ranges))
    (below : number + 1 < range.low) : Inserts number (range :: ranges) (range :: result) := by
  obtain ⟨proper, above, -⟩ := descending_cons.mp descending
  constructor
  · refine descending_cons.mpr ⟨proper, fun other held => ?_, inserts.descending⟩
    rcases (inserts.holds other).mp held with old | rfl
    · exact above other old
    · exact below
  · intro other
    rw [holds_cons, holds_cons, inserts.holds, or_assoc]

variable {ranges : List LocalAckRange}

theorem Inserts.prepend {above : Option LocalAckRange}
    {result : List LocalAckRange} (inserts : Inserts number ranges result)
    (descending : Descending (above.toList ++ ranges))
    (below : ∀ range ∈ above, number + 1 < range.low) :
    Inserts number (above.toList ++ ranges) (above.toList ++ result) := by
  cases above with
  | none => exact inserts
  | some range => exact inserts.cons descending (below range rfl)

theorem Descending.tail {above : Option LocalAckRange} {ranges : List LocalAckRange}
    (descending : Descending (above.toList ++ ranges)) : Descending ranges := by
  cases above with
  | none => exact descending
  | some range => exact (descending_cons.mp descending).2.2

theorem inserts_here (descending : Descending ranges)
    (above : ∀ other, Holds ranges other → other + 1 < number) :
    Inserts number ranges (⟨number, number⟩ :: ranges) := by
  constructor
  · exact descending_cons.mpr ⟨le_rfl, above, descending⟩
  · intro other
    rw [holds_cons, or_comm, le_antisymm_iff, and_comm]

variable {current : LocalAckRange}

theorem inserts_raise
    (descending : Descending (current :: rest)) (touches : number = current.high + 1) :
    Inserts number (current :: rest) ({ current with high := number } :: rest) := by
  obtain ⟨proper, lower, further⟩ := descending_cons.mp descending
  constructor
  · exact descending_cons.mpr ⟨by dsimp only; omega, lower, further⟩
  · intro other
    rw [holds_cons, holds_cons]
    dsimp only
    constructor
    · rintro (inside | held)
      · by_cases last : other = number
        · exact .inr last
        · exact .inl (.inl (by omega))
      · exact .inl (.inr held)
    · rintro ((inside | held) | rfl)
      · exact .inl (by omega)
      · exact .inr held
      · exact .inl (by omega)

theorem inserts_lower
    (descending : Descending (current :: rest)) (touches : number + 1 = current.low)
    (free : ∀ other, Holds rest other → other + 1 < number) :
    Inserts number (current :: rest) ({ current with low := number } :: rest) := by
  obtain ⟨proper, -, further⟩ := descending_cons.mp descending
  constructor
  · exact descending_cons.mpr ⟨by dsimp only; omega, free, further⟩
  · intro other
    rw [holds_cons, holds_cons]
    dsimp only
    constructor
    · rintro (inside | held)
      · by_cases first : other = number
        · exact .inr first
        · exact .inl (.inl (by omega))
      · exact .inl (.inr held)
    · rintro ((inside | held) | rfl)
      · exact .inl (by omega)
      · exact .inr held
      · exact .inl (by omega)

theorem inserts_join {next : LocalAckRange}
    (descending : Descending (current :: next :: rest)) (touches : number + 1 = current.low)
    (joins : number = next.high + 1) :
    Inserts number (current :: next :: rest) ({ current with low := next.low } :: rest) := by
  obtain ⟨proper, -, further⟩ := descending_cons.mp descending
  obtain ⟨nextProper, nextLower, nextFurther⟩ := descending_cons.mp further
  constructor
  · exact descending_cons.mpr ⟨by dsimp only; omega, nextLower, nextFurther⟩
  · intro other
    rw [holds_cons, holds_cons, holds_cons]
    dsimp only
    constructor
    · rintro (inside | held)
      · by_cases high : current.low ≤ other
        · exact .inl (.inl (by omega))
        · by_cases middle : other = number
          · exact .inr middle
          · exact .inl (.inr (.inl (by omega)))
      · exact .inl (.inr (.inr held))
    · rintro ((inside | inside | held) | rfl)
      · exact .inl (by omega)
      · exact .inl (by omega)
      · exact .inr held
      · exact .inl (by omega)

/-- The walk of `recordReceivedPacket` adds the number, unless it is there already. -/
theorem insertNumber_spec (number : Nat) {above : Option LocalAckRange}
    {ranges : List LocalAckRange} (descending : Descending (above.toList ++ ranges))
    (below : ∀ range ∈ above, number + 1 < range.low) :
    match insertNumber number above ranges with
    | some result => Inserts number (above.toList ++ ranges) result
    | none => Holds ranges number := by
  induction ranges generalizing above with
  | nil =>
    rw [insertNumber]
    exact (inserts_here .nil fun other held => absurd held (not_holds_nil other)).prepend
      descending below
  | cons current rest ih =>
    have here := descending.tail
    obtain ⟨proper, lower, further⟩ := descending_cons.mp here
    rw [insertNumber.eq_def]
    dsimp only
    by_cases inside : current.low ≤ number ∧ number ≤ current.high
    · rw [if_pos inside]
      exact holds_cons.mpr (.inl inside)
    rw [if_neg inside]
    by_cases higher : current.high < number
    · rw [if_pos higher]
      by_cases touches : number = current.high + 1
      · rw [if_pos touches]
        have grown := inserts_raise here touches
        cases above with
        | none => exact grown
        | some previous =>
          -- a range that ends right above the number was met before this one
          have apart := below previous rfl
          dsimp only
          rw [if_neg (by omega)]
          exact grown.prepend descending below
      · rw [if_neg touches]
        refine (inserts_here here fun other held => ?_).prepend descending below
        rcases holds_cons.mp held with inside | held
        · omega
        · have gap := lower other held
          omega
    rw [if_neg higher]
    by_cases touches : number + 1 = current.low
    · rw [if_pos touches]
      cases rest with
      | nil =>
        exact (inserts_lower here touches fun other held =>
          absurd held (not_holds_nil other)).prepend descending below
      | cons next rest =>
        obtain ⟨nextProper, nextLower, -⟩ := descending_cons.mp further
        have gap := lower next.high (holds_cons.mpr (.inl ⟨nextProper, le_rfl⟩))
        dsimp only
        by_cases joins : number = next.high + 1
        · rw [if_pos joins]
          exact (inserts_join here touches joins).prepend descending below
        · rw [if_neg joins]
          refine (inserts_lower here touches fun other held => ?_).prepend descending below
          rcases holds_cons.mp held with inside | held
          · omega
          · have deeper := nextLower other held
            omega
    rw [if_neg touches]
    have deeper : number + 1 < current.low := by omega
    have walked := @ih (some current) here fun range same => by cases same; exact deeper
    cases found : insertNumber number (some current) rest with
    | none =>
      rw [found] at walked
      exact holds_cons.mpr (.inr walked)
    | some result =>
      rw [found] at walked
      exact walked.prepend descending below

theorem trimBelow_spec (floor : Nat) (descending : Descending ranges) :
    Descending (trimBelow floor ranges) ∧
      ∀ number, Holds (trimBelow floor ranges) number ↔ Holds ranges number ∧ floor ≤ number := by
  induction ranges with
  | nil => exact ⟨.nil, fun number => ⟨fun held => absurd held (not_holds_nil number), And.left⟩⟩
  | cons range rest ih =>
    obtain ⟨proper, lower, further⟩ := descending_cons.mp descending
    obtain ⟨trimmed, same⟩ := ih further
    rw [trimBelow]
    by_cases gone : range.high < floor
    · rw [if_pos gone]
      refine ⟨.nil, fun number => ⟨fun held => absurd held (not_holds_nil number), ?_⟩⟩
      rintro ⟨held, kept⟩
      rcases holds_cons.mp held with inside | held
      · omega
      · have under := lower number held
        omega
    rw [if_neg gone]
    by_cases cut : range.low < floor
    · rw [if_pos cut]
      constructor
      · exact descending_cons.mpr ⟨by dsimp only; omega,
          fun number held => absurd held (not_holds_nil number), .nil⟩
      · intro number
        have empty := not_holds_nil number
        rw [holds_cons, holds_cons]
        dsimp only
        constructor
        · rintro (inside | held)
          · exact ⟨.inl (by omega), by omega⟩
          · exact absurd held empty
        · rintro ⟨inside | held, kept⟩
          · exact .inl (by omega)
          · have under := lower number held
            omega
    · rw [if_neg cut]
      constructor
      · refine descending_cons.mpr ⟨proper, fun number held => ?_, trimmed⟩
        exact lower number ((same number).mp held).1
      · intro number
        rw [holds_cons, holds_cons, same]
        constructor
        · rintro (inside | held)
          · exact ⟨.inl inside, by omega⟩
          · exact ⟨.inr held.1, held.2⟩
        · rintro ⟨inside | held, kept⟩
          · exact .inl inside
          · exact .inr ⟨held, kept⟩

theorem holds_le_first {first : LocalAckRange}
    (descending : Descending (first :: rest)) (held : Holds (first :: rest) number) :
    number ≤ first.high := by
  obtain ⟨proper, lower, -⟩ := descending_cons.mp descending
  rcases holds_cons.mp held with inside | held
  · exact inside.2
  · have under := lower number held
    omega

/-- The window keeps what is less than 1024 below the largest number. -/
theorem trimWindow_spec (descending : Descending ranges) :
    Descending (trimWindow ranges) ∧ ∀ number, Holds (trimWindow ranges) number ↔
      Holds ranges number ∧ ∀ other, Holds ranges other → other < number + kMaxTrackedPackets := by
  cases ranges with
  | nil =>
    refine ⟨.nil, fun number => ⟨fun held => absurd held (not_holds_nil number), And.left⟩⟩
  | cons first rest =>
    obtain ⟨trimmed, same⟩ := trimBelow_spec (first.high - (kMaxTrackedPackets - 1)) descending
    refine ⟨trimmed, fun number => (same number).trans (and_congr_right fun _ => ?_)⟩
    have positive : 0 < kMaxTrackedPackets := by decide
    constructor
    · intro kept other held
      have most := holds_le_first descending held
      omega
    · intro every
      have largest := every first.high (holds_cons.mpr
        (.inl ⟨descending.proper first mem_cons_self, le_rfl⟩))
      omega

theorem containsRanges_iff (number : Nat)
    (descending : Descending ranges) : containsRanges number ranges = true ↔ Holds ranges number := by
  induction ranges with
  | nil => simp [containsRanges, not_holds_nil]
  | cons range rest ih =>
    obtain ⟨proper, lower, further⟩ := descending_cons.mp descending
    rw [containsRanges, holds_cons]
    by_cases above : range.high < number
    · rw [if_pos above]
      constructor
      · simp
      · rintro (inside | held)
        · omega
        · have under := lower number held
          omega
    rw [if_neg above]
    by_cases inside : range.low ≤ number
    · rw [if_pos inside]
      exact ⟨fun _ => .inl ⟨inside, by omega⟩, fun _ => rfl⟩
    · rw [if_neg inside, ih further]
      constructor
      · exact .inr
      · rintro (within | held)
        · exact absurd within.1 inside
        · exact held

/-- An ACK frame's gaps and lengths are taken, and decode to the ranges they were made of. -/
theorem frameRanges_spec {previous : LocalAckRange} (descending : Descending (previous :: ranges)) :
    frameRanges previous ranges ≠ .error "Invalid QUIC ACK range ordering" ∧
      ∀ wire, frameRanges previous ranges = .ok wire →
        Connection.ackRanges previous.low wire =
          .ok (ranges.map fun range => (range.low, range.high)) := by
  induction ranges generalizing previous with
  | nil =>
    constructor
    · simp [frameRanges]
    · intro wire built
      cases built
      rfl
  | cons current rest ih =>
    obtain ⟨-, lower, further⟩ := descending_cons.mp descending
    obtain ⟨ordered, decodes⟩ := ih further
    have proper := further.proper current mem_cons_self
    have gap := lower current.high (holds_cons.mpr (.inl ⟨proper, le_rfl⟩))
    rw [frameRanges, if_neg (by omega)]
    dsimp only
    split
    · exact ⟨by decide, by simp⟩
    · split
      · rename_i wire built
        refine ⟨by simp, ?_⟩
        rintro _ ⟨⟩
        have high : previous.low - (previous.low - current.high - 2) - 2 = current.high := by omega
        have low : current.high - (current.high - current.low) = current.low := by omega
        rw [Connection.ackRanges, if_neg (by dsimp only; omega)]
        dsimp only
        rw [high, low, if_neg (by omega), decodes wire built]
        rfl
      · rename_i message failed
        constructor
        · intro same
          cases same
          exact ordered failed
        · simp

theorem frameRanges_total {previous : LocalAckRange}
    (descending : Descending (previous :: ranges)) (fits : previous.low ≤ maxVarInt) :
    ∃ wire, frameRanges previous ranges = .ok wire := by
  induction ranges generalizing previous with
  | nil => exact ⟨[], rfl⟩
  | cons current rest ih =>
    obtain ⟨-, lower, further⟩ := descending_cons.mp descending
    have proper := further.proper current mem_cons_self
    have gap := lower current.high (holds_cons.mpr (.inl ⟨proper, le_rfl⟩))
    obtain ⟨wire, built⟩ := ih further (by omega)
    refine ⟨⟨previous.low - current.high - 2, current.high - current.low⟩ :: wire, ?_⟩
    rw [frameRanges, if_neg (by omega)]
    dsimp only
    rw [if_neg (by omega), built]

/-- The frame the tracker builds never fails on its ranges, and decodes to what it holds. -/
theorem buildAckFrame_spec {tracker : AckTracker} (descending : Descending tracker.ranges)
    (ackDelay : Nat) :
    tracker.buildAckFrame ackDelay ≠ .error "Invalid QUIC ACK range ordering" ∧
      ∀ frame, tracker.buildAckFrame ackDelay = .ok frame →
        ∃ largest firstAckRange wire ranges,
          frame = .ack largest ackDelay firstAckRange wire none ∧
          Connection.acknowledgedRanges largest firstAckRange wire = .ok ranges ∧
          ∀ number, (∃ range ∈ ranges, range.1 ≤ number ∧ number ≤ range.2) ↔
            Holds tracker.ranges number := by
  unfold buildAckFrame
  cases tracked : tracker.ranges with
  | nil => exact ⟨by simp, by simp⟩
  | cons first rest =>
    rw [tracked] at descending
    obtain ⟨ordered, decodes⟩ := frameRanges_spec descending
    have proper := descending.proper first mem_cons_self
    dsimp only
    split
    · exact ⟨by simp, by simp⟩
    · split
      · rename_i wire built
        refine ⟨by simp, ?_⟩
        intro frame same
        cases same
        refine ⟨first.high, first.high - first.low, wire,
          (first.low, first.high) :: rest.map fun range => (range.low, range.high), rfl, ?_, ?_⟩
        · have low : first.high - (first.high - first.low) = first.low := by omega
          rw [Connection.acknowledgedRanges, if_neg (by omega), low, decodes wire built]
        · intro number
          simp [Holds]
      · rename_i message failed
        refine ⟨fun same => ?_, by simp⟩
        cases same
        exact ordered failed

theorem buildAckFrame_total {tracker : AckTracker}
    (descending : Descending tracker.ranges) (nonempty : tracker.ranges ≠ [])
    (fits : ∀ number, Holds tracker.ranges number → number ≤ maxVarInt)
    (delay : ackDelay ≤ maxVarInt) : ∃ frame, tracker.buildAckFrame ackDelay = .ok frame := by
  unfold buildAckFrame
  cases tracked : tracker.ranges with
  | nil => exact absurd tracked nonempty
  | cons first rest =>
    rw [tracked] at descending fits
    have proper := descending.proper first mem_cons_self
    have top := fits first.high (holds_cons.mpr (.inl ⟨proper, le_rfl⟩))
    obtain ⟨wire, built⟩ := frameRanges_total descending (by omega)
    refine ⟨.ack first.high ackDelay (first.high - first.low) wire none, ?_⟩
    dsimp only
    rw [if_neg (by omega), built]

end AckTracker
end SwStack.Quic
