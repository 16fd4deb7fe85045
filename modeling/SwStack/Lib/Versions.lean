import SwStack.Lib.SortedMap

/-! Versioned records in a stack of tiers. A point search stops at the first tier
that holds the key; a merge visits every tier and keeps a version by comparing
sequences. -/
namespace SwStack.Lib

class Versioned (ρ : Type u) where
  sequence : ρ → Nat
  deleted : ρ → Bool

open Versioned

variable {κ : Type u} [LinearOrder κ] {ρ : Type v} [Versioned ρ]

/-- The first version met, tiers in search order. -/
def firstHit (tiers : List (SortedMap κ ρ)) (key : κ) : Option ρ :=
  tiers.findSome? fun tier => tier.find? key

/-- Keeps the held version unless `replaces held offered`. -/
def offer (replaces : Nat → Nat → Bool) (merged : SortedMap κ ρ) (entry : κ × ρ) :
    SortedMap κ ρ :=
  match merged.find? entry.1 with
  | none => merged.insert entry.1 entry.2
  | some held =>
    if replaces (sequence held) (sequence entry.2) then merged.insert entry.1 entry.2 else merged

def mergeInto (replaces : Nat → Nat → Bool) (merged tier : SortedMap κ ρ) : SortedMap κ ρ :=
  tier.entries.foldl (offer replaces) merged

/-- Every tier is visited; a version replaces only a strictly older one. -/
def mergeNewest (tiers : List (SortedMap κ ρ)) : SortedMap κ ρ :=
  tiers.foldl (mergeInto fun held offered => decide (held < offered)) ∅

def dropDeleted (merged : SortedMap κ ρ) : SortedMap κ ρ :=
  merged.filter fun _ record => !deleted record

def keepVersion (replaces : Nat → Nat → Bool) : Option ρ → Option ρ → Option ρ
  | held, none => held
  | none, some offered => some offered
  | some held, some offered =>
    if replaces (sequence held) (sequence offered) then some offered else some held

theorem find?_offer (replaces : Nat → Nat → Bool) (merged : SortedMap κ ρ) (entry : κ × ρ)
    (key : κ) : (offer replaces merged entry).find? key =
      if key = entry.1 then keepVersion replaces (merged.find? key) (some entry.2)
      else merged.find? key := by
  rw [offer]
  cases held : merged.find? entry.1 with
  | none =>
    rw [SortedMap.find?_insert]
    split
    · rename_i same
      rw [same, held, keepVersion]
    · rfl
  | some record =>
    dsimp only
    by_cases same : key = entry.1
    · rw [if_pos same, same, held, keepVersion]
      split
      · rw [SortedMap.find?_insert_self]
      · exact held
    · rw [if_neg same]
      split
      · rw [SortedMap.find?_insert, if_neg same]
      · rfl

end SwStack.Lib
