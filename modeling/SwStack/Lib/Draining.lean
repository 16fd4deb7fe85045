import SwStack.Lib.SortedMap

/-! Loops that walk an ordered map from a position on, erase the entries they choose and note
their keys. -/
namespace SwStack.Lib

open List

universe u v

namespace SortedMap

variable {κ : Type u} {ν : Type v} [LinearOrder κ]

theorem find?_foldl_erase (keys : List κ) (map : SortedMap κ ν) (key : κ) :
    (keys.foldl SortedMap.erase map).find? key = if key ∈ keys then none else map.find? key := by
  induction keys generalizing map with
  | nil => simp
  | cons first rest ih =>
    rw [foldl_cons, ih, SortedMap.find?_erase]
    by_cases same : key = first
    · simp [same]
    · simp [same]

/-- Walks the entries until the first one that is not admitted. -/
def drain (admits : κ → Bool) (chosen : κ → ν → Bool) :
    List (κ × ν) → SortedMap κ ν × List κ → SortedMap κ ν × List κ
  | [], state => state
  | entry :: rest, state =>
    if admits entry.1 then
      drain admits chosen rest
        (if chosen entry.1 entry.2 then (state.1.erase entry.1, state.2 ++ [entry.1]) else state)
    else state

/-- The loop at once: the chosen ones among the admitted entries are erased in their order. -/
theorem drain_eq (admits : κ → Bool) (chosen : κ → ν → Bool) (entries : List (κ × ν))
    (state : SortedMap κ ν × List κ) :
    drain admits chosen entries state =
      let taken := (((entries.takeWhile fun entry => admits entry.1).filter fun entry =>
        chosen entry.1 entry.2).map Prod.fst)
      (taken.foldl erase state.1, state.2 ++ taken) := by
  induction entries generalizing state with
  | nil => simp [drain]
  | cons entry rest ih =>
    rw [drain]
    by_cases admitted : admits entry.1 = true
    · rw [if_pos admitted, ih]
      by_cases taken : chosen entry.1 entry.2 = true
      · simp [admitted, taken]
      · simp [admitted, taken]
    · simp [admitted]

/-- The state is the map without the entries of a kind, and their keys, each once. -/
structure Drained (map : SortedMap κ ν) (kind : κ → ν → Prop)
    (state : SortedMap κ ν × List κ) : Prop where
  nodup : state.2.Nodup
  mem : ∀ key, key ∈ state.2 ↔ ∃ value, map.find? key = some value ∧ kind key value
  left : ∀ key, state.1.find? key = if key ∈ state.2 then none else map.find? key

namespace Drained

variable {map : SortedMap κ ν} {kind other : κ → ν → Prop} {state : SortedMap κ ν × List κ}

theorem start (map : SortedMap κ ν) : Drained map (fun _ _ => False) (map, []) where
  nodup := nodup_nil
  mem := by simp
  left := by simp

theorem congr (drained : Drained map kind state)
    (same : ∀ key value, map.find? key = some value → (kind key value ↔ other key value)) :
    Drained map other state where
  nodup := drained.nodup
  mem key := by
    rw [drained.mem]
    exact exists_congr fun value => and_congr_right fun found => same key value found
  left := drained.left

/-- What is left was in the map and is not of the kind. -/
theorem left_eq_some_iff (drained : Drained map kind state) :
    state.1.find? key = some value ↔ map.find? key = some value ∧ ¬ kind key value := by
  rw [drained.left]
  constructor
  · intro found
    split at found
    · cases found
    · rename_i kept
      refine ⟨found, fun chosen => kept ((drained.mem key).mpr ⟨value, found, chosen⟩)⟩
  · rintro ⟨found, kept⟩
    rw [if_neg, found]
    intro member
    obtain ⟨taken, present, chosen⟩ := (drained.mem key).mp member
    rw [present] at found
    cases found
    exact kept chosen

theorem take (drained : Drained map kind state) {key : κ} {value : ν}
    (present : state.1.find? key = some value) :
    Drained map (fun k v => kind k v ∨ k = key) (state.1.erase key, state.2 ++ [key]) := by
  obtain ⟨found, kept⟩ := drained.left_eq_some_iff.mp present
  constructor
  · have fresh : key ∉ state.2 := by
      intro member
      rw [drained.left, if_pos member] at present
      cases present
    refine drained.nodup.append (nodup_singleton key) ?_
    intro other taken single
    rw [mem_singleton] at single
    exact fresh (single ▸ taken)
  · intro other
    rw [mem_append, mem_singleton, drained.mem]
    constructor
    · rintro (⟨taken, present, chosen⟩ | rfl)
      · exact ⟨taken, present, .inl chosen⟩
      · exact ⟨value, found, .inr rfl⟩
    · rintro ⟨taken, present, chosen | same⟩
      · exact .inl ⟨taken, present, chosen⟩
      · exact .inr same
  · intro other
    rw [find?_erase, drained.left]
    by_cases same : other = key
    · simp [same]
    · simp [same]

theorem drain_entries {admits : κ → Bool} {chosen : κ → ν → Bool} {entries : List (κ × ν)}
    (ordered : entries.Pairwise fun left right => left.1 < right.1)
    (present : ∀ entry ∈ entries, state.1.find? entry.1 = some entry.2)
    (closed : ∀ {low high}, low < high → admits high = true → admits low = true)
    (drained : Drained map kind state) :
    Drained map (fun key value => kind key value ∨
        ((key, value) ∈ entries ∧ admits key = true ∧ chosen key value = true))
      (drain admits chosen entries state) := by
  induction entries generalizing kind state with
  | nil => exact drained.congr (by simp)
  | cons entry rest ih =>
    obtain ⟨above, tail⟩ := pairwise_cons.mp ordered
    have here := present entry mem_cons_self
    have found := (drained.left_eq_some_iff.mp here).1
    rw [drain]
    by_cases admitted : admits entry.1 = true
    · rw [if_pos admitted]
      by_cases taken : chosen entry.1 entry.2 = true
      · rw [if_pos taken]
        have later := ih tail (fun other member => by
          rw [find?_erase, if_neg (above other member).ne']
          exact present other (mem_cons_of_mem _ member)) (drained.take here)
        refine later.congr fun key value present => ?_
        rw [mem_cons, or_assoc]
        refine or_congr_right ⟨?_, ?_⟩
        · rintro (rfl | ⟨member, passed, picked⟩)
          · rw [found] at present
            cases present
            exact ⟨.inl rfl, admitted, taken⟩
          · exact ⟨.inr member, passed, picked⟩
        · rintro ⟨same | member, passed, picked⟩
          · exact .inl (congrArg Prod.fst same)
          · exact .inr ⟨member, passed, picked⟩
      · rw [if_neg taken]
        have later := ih tail (fun other member =>
          present other (mem_cons_of_mem _ member)) drained
        refine later.congr fun key value _ => ?_
        rw [mem_cons]
        refine or_congr_right ⟨?_, ?_⟩
        · rintro ⟨member, passed, picked⟩
          exact ⟨.inr member, passed, picked⟩
        · rintro ⟨same | member, passed, picked⟩
          · cases same
            exact absurd picked taken
          · exact ⟨member, passed, picked⟩
    · rw [if_neg admitted]
      refine drained.congr fun key value _ => ?_
      constructor
      · exact .inl
      · rintro (already | ⟨member, passed, picked⟩)
        · exact already
        · rcases mem_cons.mp member with same | later
          · cases same
            exact absurd passed admitted
          · exact absurd (closed (above (key, value) later) passed) admitted

/-- The loop from the first key that is not below `first`. -/
theorem drain_fromKey (first : κ)
    (closed : ∀ {low high}, low < high → admits high = true → admits low = true)
    (drained : Drained map kind state) :
    Drained map (fun key value => kind key value ∨
        (first ≤ key ∧ admits key = true ∧ chosen key value = true))
      (drain admits chosen (state.1.fromKey first) state) := by
  have entries := fromKey_eq_filter state.1 first
  have ordered : (state.1.fromKey first).Pairwise fun left right => left.1 < right.1 := by
    rw [entries]
    exact state.1.ordered.filter _
  have walked := @drain_entries κ ν _ map kind state admits chosen _ ordered
    (fun entry member => by
      rw [entries] at member
      exact find?_of_mem (mem_filter.mp member).1) closed drained
  refine walked.congr fun key value found => ?_
  by_cases already : kind key value
  · exact iff_of_true (.inl already) (.inl already)
  · have member : (key, value) ∈ state.1.entries :=
      find?_eq_some_iff.mp (drained.left_eq_some_iff.mpr ⟨found, already⟩)
    rw [entries, mem_filter]
    simp [member]

theorem drain_all (closed : ∀ {low high}, low < high → admits high = true → admits low = true) :
    Drained map (fun key value => admits key = true ∧ chosen key value = true)
      (drain admits chosen map.entries (map, [])) := by
  have walked := @drain_entries κ ν _ map _ _ admits chosen _ map.ordered
    (fun entry member => find?_of_mem member) closed (start map)
  refine walked.congr fun key value found => ?_
  rw [false_or, and_iff_right (find?_eq_some_iff.mp found)]

end Drained
end SortedMap
end SwStack.Lib
