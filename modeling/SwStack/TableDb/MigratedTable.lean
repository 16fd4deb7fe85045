import SwStack.TableDb.Migration
import SwStack.TableDb.PreparedAgreement

/-! What a migration makes of a row, and of a table: every row stays under its id, with the values
its columns had under their previous names. -/
open List

namespace SwStack.TableDb

open SwStack.Lib SwStack.Types SwStack.EmbeddedDb

variable {numbers : Numbers}

end SwStack.TableDb

/-! A table and its migration: one batch puts every row under its id in the next table. The
migration keeps every value for every next schema exactly when the renames settle in every row. -/
namespace SwStack.TableDb

open SwStack.Lib SwStack.Types SwStack.EmbeddedDb

variable {numbers : Numbers}

/-- An id as they are generated, `row-` and two numbers: its only `r` comes first. -/
def GeneratedId (rowId : Bytes) : Prop :=
  ∃ rest, rowId = ascii "row-" ++ rest ∧ 0x72 ∉ rest ∧ 0 ∉ rest

theorem GeneratedId.plain {rowId : Bytes} (generated : GeneratedId rowId) :
    SwString.toUtf8 rowId = rowId := by
  obtain ⟨rest, rfl, -, plain⟩ := generated
  refine SwString.toUtf8_of_plain ?_
  rw [mem_append, not_or]
  exact ⟨by decide, plain⟩

theorem rowId_spelled (rest : Bytes) : ascii "row-" ++ rest = 0x72 :: (ascii "ow-" ++ rest) := rfl

theorem GeneratedId.scanned (generated : GeneratedId rowId) : Scanned rowId := by
  obtain ⟨rest, rfl, -, -⟩ := generated
  rw [Scanned, rowId_spelled, head?_cons]
  decide

theorem GeneratedId.not_suffix (leftMade : GeneratedId left)
    (rightMade : GeneratedId right) (same : left = front ++ right) : front = [] := by
  obtain ⟨leftRest, rfl, leftPlain, -⟩ := leftMade
  obtain ⟨rightRest, rfl, -, -⟩ := rightMade
  cases front with
  | nil => rfl
  | cons first front =>
    rw [rowId_spelled, cons_append, List.cons.injEq] at same
    obtain ⟨-, tails⟩ := same
    have inside : (0x72 : UInt8) ∈ ascii "ow-" ++ leftRest := by
      have member : (0x72 : UInt8) ∈ front ++ (ascii "row-" ++ rightRest) :=
        mem_append_right _ (mem_append_left _ (by decide))
      rwa [← tails] at member
    rcases mem_append.mp inside with fixed | later
    · exact absurd fixed (by decide)
    · exact absurd later leftPlain

theorem GeneratedId.unique {left right frontLeft frontRight : Bytes} (leftMade : GeneratedId left)
    (rightMade : GeneratedId right) (same : frontLeft ++ left = frontRight ++ right) :
    left = right := by
  rcases append_eq_append_iff.mp same with ⟨middle, -, equal⟩ | ⟨middle, -, equal⟩
  · rw [leftMade.not_suffix rightMade equal] at equal
    exact equal
  · rw [rightMade.not_suffix leftMade equal] at equal
    exact equal.symm

variable {entry : Bytes × Row}

section

variable {environment : Environment} {current next : TableSchema} {plan : MigrationPlan}
  {content : Content}

variable {batch : RowBatch}

end

theorem foldlM_total {ε σ α : Type} {step : σ → α → Except ε σ} {items : List α}
    (total : ∀ state, ∀ item ∈ items, ∃ next, step state item = .ok next) (start : σ) :
    ∃ last, items.foldlM step start = .ok last := by
  induction items generalizing start with
  | nil => exact ⟨start, rfl⟩
  | cons item items ih =>
    obtain ⟨next, stepped⟩ := total start item mem_cons_self
    obtain ⟨last, ran⟩ := ih (fun state other later =>
      total state other (mem_cons_of_mem _ later)) next
    refine ⟨last, ?_⟩
    rw [foldlM_cons, stepped]
    exact ran

end SwStack.TableDb
