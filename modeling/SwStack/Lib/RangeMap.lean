import SwStack.Lib.SortedMap

/-! Sets of numbers kept as disjoint ranges, each stored under its first number. With
`gap = 0` the stored end is exclusive, with `gap = 1` it is the last number itself; in
both cases two ranges that touch are one range. -/
namespace SwStack.Lib

open List

abbrev RangeMap := SortedMap Nat Nat

namespace RangeMap

open SortedMap

variable {gap : Nat} {map : RangeMap}

def Covers (gap : Nat) (map : RangeMap) (number : Nat) : Prop :=
  ∃ range ∈ map.entries, range.1 ≤ number ∧ number < range.2 + gap

/-- No range is empty, and some number lies between any two of them. -/
structure Separated (gap : Nat) (map : RangeMap) : Prop where
  proper : ∀ range ∈ map.entries, range.1 < range.2 + gap
  apart : ∀ low ∈ map.entries, ∀ high ∈ map.entries, low.1 < high.1 → low.2 + gap < high.1

/-- The range to add, joined with the range before it when the two touch. -/
def joinBefore (gap : Nat) (map : RangeMap) (first last : Nat) : RangeMap × Nat × Nat :=
  match map.before? first with
  | some previous =>
    if first ≤ previous.2 + gap then (map.erase previous.1, previous.1, max last previous.2)
    else (map, first, last)
  | none => (map, first, last)

/-- Joins the ranges of the walk that start inside the range to add or right after it. -/
def joinAfter (gap : Nat) : List (Nat × Nat) → RangeMap → Nat → RangeMap × Nat
  | [], map, last => (map, last)
  | next :: rest, map, last =>
    if next.1 ≤ last + gap then joinAfter gap rest (map.erase next.1) (max last next.2)
    else (map, last)

def add (gap : Nat) (map : RangeMap) (first last : Nat) : RangeMap :=
  let before := joinBefore gap map first last
  let after := joinAfter gap (before.1.fromKey before.2.1) before.1 before.2.2
  after.1.insert before.2.1 after.2

theorem Separated.empty : Separated gap ∅ where
  proper _ member := by cases member
  apart _ member := by cases member

theorem covers_empty : ¬ Covers gap ∅ number := by
  rintro ⟨_, member, _⟩
  cases member

theorem Separated.erase (separated : Separated gap map) (key : Nat) :
    Separated gap (map.erase key) := by
  constructor
  · intro range member
    exact separated.proper range (mem_entries_erase.mp member).1
  · intro low lowMember high highMember
    exact separated.apart low (mem_entries_erase.mp lowMember).1 high
      (mem_entries_erase.mp highMember).1

theorem covers_erase_or {range : Nat × Nat} (member : range ∈ map.entries) (number : Nat) :
    Covers gap map number ↔
      Covers gap (map.erase range.1) number ∨ (range.1 ≤ number ∧ number < range.2 + gap) := by
  constructor
  · rintro ⟨held, heldMember, inside⟩
    by_cases same : held.1 = range.1
    · exact .inr (entry_unique heldMember member same ▸ inside)
    · exact .inl ⟨held, mem_entries_erase.mpr ⟨heldMember, same⟩, inside⟩
  · rintro (⟨held, heldMember, inside⟩ | inside)
    · exact ⟨held, (mem_entries_erase.mp heldMember).1, inside⟩
    · exact ⟨range, member, inside⟩

/-- What a range being added has been joined with so far: the numbers of the map and the
range together stay the same, and no range left over touches it from below. -/
structure Joined (gap : Nat) (original map : RangeMap) (first last : Nat)
    (covered : Nat → Prop) : Prop where
  separated : Separated gap map
  proper : first < last + gap
  below : ∀ range ∈ map.entries, range.1 < first → range.2 + gap < first
  covers : ∀ number, (Covers gap map number ∨ (first ≤ number ∧ number < last + gap)) ↔
    (Covers gap original number ∨ covered number)

theorem joinBefore_joined (separated : Separated gap map) (proper : first < last + gap) :
    Joined gap map (joinBefore gap map first last).1 (joinBefore gap map first last).2.1
      (joinBefore gap map first last).2.2 fun number => first ≤ number ∧ number < last + gap := by
  have untouched (below : ∀ range ∈ map.entries, range.1 < first → range.2 + gap < first) :
      Joined gap map map first last fun number => first ≤ number ∧ number < last + gap :=
    ⟨separated, proper, below, fun _ => Iff.rfl⟩
  unfold joinBefore
  cases found : map.before? first with
  | none =>
    have none_below := before?_eq_none_iff.mp found
    exact untouched fun range member below => absurd below (not_lt.mpr (none_below range member))
  | some previous =>
    obtain ⟨⟨member, below⟩, largest⟩ := before?_eq_some_iff.mp found
    have nonempty := separated.proper previous member
    by_cases touches : first ≤ previous.2 + gap
    · simp only [if_pos touches]
      refine ⟨separated.erase _, by omega, ?_, fun number => ?_⟩
      · intro range held under
        obtain ⟨held, -⟩ := mem_entries_erase.mp held
        exact separated.apart range held previous member under
      · rw [covers_erase_or member number, or_assoc]
        refine or_congr_right ?_
        constructor
        · intro inside
          omega
        · rintro (inside | inside)
          · omega
          · omega
    · simp only [if_neg touches]
      refine untouched fun range held under => ?_
      rcases Nat.lt_or_eq_of_le (largest range held under) with lower | same
      · have := separated.apart range held previous member lower
        omega
      · rw [entry_unique held member same]
        omega

theorem joinAfter_joined (joined : Joined gap original map first last covered)
    (ordered : walk.Pairwise fun left right => left.1 < right.1)
    (visits : ∀ range, range ∈ walk ↔ range ∈ map.entries ∧ first ≤ range.1) :
    Joined gap original (joinAfter gap walk map last).1 first (joinAfter gap walk map last).2 covered ∧
      ∀ range ∈ (joinAfter gap walk map last).1.entries, first ≤ range.1 →
        (joinAfter gap walk map last).2 + gap < range.1 := by
  induction walk generalizing map last with
  | nil =>
    refine ⟨joined, fun range member reached => ?_⟩
    exact absurd ((visits range).mpr ⟨member, reached⟩) not_mem_nil
  | cons next rest ih =>
    obtain ⟨above, tail⟩ := pairwise_cons.mp ordered
    obtain ⟨member, reached⟩ := (visits next).mp mem_cons_self
    simp only [joinAfter]
    split
    · rename_i touches
      have nonempty := joined.separated.proper next member
      have proper := joined.proper
      refine ih ⟨joined.separated.erase _, by omega, ?_, fun number => ?_⟩ tail fun range => ?_
      · intro range held under
        exact joined.below range (mem_entries_erase.mp held).1 under
      · rw [← joined.covers number, covers_erase_or member number, or_assoc]
        refine or_congr_right ?_
        constructor
        · intro inside
          omega
        · rintro (inside | inside) <;> omega
      · rw [mem_entries_erase]
        constructor
        · intro visited
          obtain ⟨held, reached⟩ := (visits range).mp (mem_cons_of_mem _ visited)
          exact ⟨⟨held, (above range visited).ne'⟩, reached⟩
        · rintro ⟨⟨held, different⟩, reached⟩
          rcases mem_cons.mp ((visits range).mpr ⟨held, reached⟩) with rfl | visited
          · exact absurd rfl different
          · exact visited
    · rename_i clear
      refine ⟨joined, fun range held reached => ?_⟩
      rcases mem_cons.mp ((visits range).mpr ⟨held, reached⟩) with rfl | visited
      · omega
      · have := above range visited
        omega

theorem add_joined (separated : Separated gap map) (proper : first < last + gap) :
    ∃ left start stop, add gap map first last = SortedMap.insert left start stop ∧
      Joined gap map left start stop (fun number => first ≤ number ∧ number < last + gap) ∧
      ∀ range ∈ left.entries, start ≤ range.1 → stop + gap < range.1 := by
  have joined := joinBefore_joined separated proper
  have visits : ∀ range, range ∈ (joinBefore gap map first last).1.fromKey
      (joinBefore gap map first last).2.1 ↔
      range ∈ (joinBefore gap map first last).1.entries ∧
        (joinBefore gap map first last).2.1 ≤ range.1 := by
    intro range
    rw [fromKey_eq_filter, mem_filter, decide_eq_true_iff]
  have ordered : ((joinBefore gap map first last).1.fromKey
      (joinBefore gap map first last).2.1).Pairwise fun left right => left.1 < right.1 := by
    rw [fromKey_eq_filter]
    exact (joinBefore gap map first last).1.ordered.filter _
  obtain ⟨joined, above⟩ := joinAfter_joined joined ordered visits
  exact ⟨_, _, _, rfl, joined, above⟩

theorem Separated.add (separated : Separated gap map) (proper : first < last + gap) :
    Separated gap (add gap map first last) := by
  obtain ⟨left, start, stop, made, joined, above⟩ := add_joined separated proper
  rw [made]
  constructor
  · intro range member
    rcases mem_entries_insert.mp member with rfl | ⟨-, held⟩
    · exact joined.proper
    · exact joined.separated.proper range held
  · intro low lowMember high highMember below
    rcases mem_entries_insert.mp lowMember with rfl | ⟨lowOther, lowHeld⟩ <;>
      rcases mem_entries_insert.mp highMember with rfl | ⟨highOther, highHeld⟩
    · omega
    · exact above high highHeld below.le
    · exact joined.below low lowHeld below
    · exact joined.separated.apart low lowHeld high highHeld below

theorem covers_add (separated : Separated gap map) (proper : first < last + gap) (number : Nat) :
    Covers gap (add gap map first last) number ↔
      Covers gap map number ∨ (first ≤ number ∧ number < last + gap) := by
  obtain ⟨left, start, stop, made, joined, above⟩ := add_joined separated proper
  rw [made, ← joined.covers number]
  constructor
  · rintro ⟨range, member, inside⟩
    rcases mem_entries_insert.mp member with rfl | ⟨-, held⟩
    · exact .inr inside
    · exact .inl ⟨range, held, inside⟩
  · rintro (⟨range, held, inside⟩ | inside)
    · by_cases same : range.1 = start
      · have := above range held same.ge
        have := joined.proper
        omega
      · exact ⟨range, mem_entries_insert.mpr (.inr ⟨same, held⟩), inside⟩
    · exact ⟨(start, stop), mem_entries_insert.mpr (.inl rfl), inside⟩

/-- One step back from the upper bound finds the range of a covered number. -/
theorem covers_iff_floor? (separated : Separated gap map) (number : Nat) :
    Covers gap map number ↔
      ∃ range, map.floor? number = some range ∧ number < range.2 + gap := by
  constructor
  · rintro ⟨range, member, below, inside⟩
    cases found : map.floor? number with
    | none => exact absurd below (not_le.mpr (floor?_eq_none_iff.mp found range member))
    | some previous =>
      obtain ⟨⟨held, -⟩, largest⟩ := floor?_eq_some_iff.mp found
      refine ⟨previous, rfl, ?_⟩
      rcases Nat.lt_or_eq_of_le (largest range member below) with lower | same
      · have := separated.apart range member previous held lower
        have : previous.1 ≤ number := (floor?_eq_some_iff.mp found).1.2
        omega
      · exact entry_unique member held same ▸ inside
  · rintro ⟨range, found, inside⟩
    obtain ⟨⟨held, below⟩, -⟩ := floor?_eq_some_iff.mp found
    exact ⟨range, held, below, inside⟩

end RangeMap
end SwStack.Lib
