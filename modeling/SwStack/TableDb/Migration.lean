import SwStack.TableDb.ExactWrites

/-! A row and its migration. The renames of a plan are made one after another in the order of the
old names, on a row that each of them changes. -/
namespace SwStack.TableDb

open SwStack.Lib SwStack.Types SwStack.EmbeddedDb List

/-- The name that a field has after a migration. -/
def newName (plan : MigrationPlan) (field : Bytes) : Bytes := (plan.find? field).getD field

def IsField (schema : TableSchema) (field : Bytes) : Prop :=
  isBuiltInField field = true ∨ (findColumn schema field).isSome

/-- The renames of a plan are an injective map of the columns of a schema: no two fields get one
name. -/
structure InjectiveRenames (current : TableSchema) (plan : MigrationPlan) : Prop where
  columns : ∀ renamed ∈ plan.entries,
    (findColumn current renamed.1).isSome ∧ isBuiltInField renamed.1 = false
  injective : ∀ left right, IsField current left → IsField current right →
    newName plan left = newName plan right → left = right

/-- No field that a row has is renamed to a field that is renamed at its turn or after it. -/
def Settled (plan : MigrationPlan) (row : JsonObject) : Prop :=
  ∀ renamed ∈ plan.entries, (row.lookup renamed.1).isSome →
    plan.contains renamed.2 = true → renamed.2 < renamed.1

variable {working : JsonObject} {renamed : Bytes × Bytes}

/-- A rename that a row has the field of. -/
def movesTo (row : JsonObject) (field : Bytes) (renamed : Bytes × Bytes) : Bool :=
  decide (renamed.2 = field) && (row.lookup renamed.1).isSome

variable {row : JsonObject} {made : List (Bytes × Bytes)} {field : Bytes}

/-- Renames in order whose values stay where they are moved. -/
structure Orderly (row : JsonObject) (made : List (Bytes × Bytes)) : Prop where
  ordered : made.Pairwise fun left right => left.1 < right.1
  targets : (made.map Prod.snd).Nodup
  settled : ∀ renamed ∈ made, (row.lookup renamed.1).isSome →
    renamed.2 ∈ made.map Prod.fst → renamed.2 < renamed.1

theorem Orderly.front (orderly : Orderly row (made ++ [renamed])) : Orderly row made where
  ordered := (pairwise_append.mp orderly.ordered).1
  targets := by
    have targets := orderly.targets
    rw [map_append, nodup_append] at targets
    exact targets.1
  settled other member present named :=
    orderly.settled other (mem_append_left _ member) present (by
      rw [map_append]
      exact mem_append_left _ named)

theorem Orderly.unmoved (orderly : Orderly row (made ++ [renamed])) :
    made.find? (movesTo row renamed.1) = none ∧ renamed.1 ∉ made.map Prod.fst := by
  have below : ∀ other ∈ made, other.1 < renamed.1 := fun other member =>
    (pairwise_append.mp orderly.ordered).2.2 other member renamed (mem_singleton.mpr rfl)
  constructor
  · rw [find?_eq_none]
    intro other member moves
    rw [movesTo, Bool.and_eq_true, decide_eq_true_iff] at moves
    have less := orderly.settled other (mem_append_left _ member) moves.2 (by
      rw [moves.1, map_append]
      exact mem_append_right _ (mem_singleton.mpr rfl))
    rw [moves.1] at less
    exact lt_asymm less (below other member)
  · intro member
    obtain ⟨other, held, same⟩ := mem_map.mp member
    exact absurd (below other held) (same ▸ lt_irrefl _)

section

variable {current : TableSchema} {plan : MigrationPlan} {row : JsonObject}

theorem newName_of_mem (member : renamed ∈ plan.entries) : newName plan renamed.1 = renamed.2 := by
  rw [newName, SortedMap.find?_of_mem member, Option.getD_some]

theorem InjectiveRenames.target_unique (renames : InjectiveRenames current plan)
    (leftIn : left ∈ plan.entries) (rightIn : right ∈ plan.entries)
    (same : left.2 = right.2) : left = right := by
  refine SortedMap.entry_unique leftIn rightIn (renames.injective _ _
    (Or.inr (renames.columns left leftIn).1) (Or.inr (renames.columns right rightIn).1) ?_)
  rw [newName_of_mem leftIn, newName_of_mem rightIn, same]

theorem InjectiveRenames.targets (renames : InjectiveRenames current plan) :
    (plan.entries.map Prod.snd).Nodup := by
  refine List.Nodup.map_on (fun left leftIn right rightIn same =>
    renames.target_unique leftIn rightIn same) ?_
  exact plan.ordered.imp fun less same => absurd less (by rw [same]; exact lt_irrefl _)

end

end SwStack.TableDb
