import SwStack.EmbeddedDb.TableSearch

/-! Byte arrays as keys. A null array has no bytes and is not the empty one; the order does not tell
the two apart. -/
namespace SwStack.EmbeddedDb

open SwStack.Lib TableFile

/-- `none` is the null array. -/
abbrev SwByteArray := Option Bytes

namespace SwByteArray

/-- `operator==` -/
def equal : SwByteArray → SwByteArray → Bool
  | none, none => true
  | some left, some right =>
    if left.length ≠ right.length then false
    else if left.length = 0 then true
    else memcmp left right = .eq
  | _, _ => false

/-- `operator<` -/
def less : SwByteArray → SwByteArray → Bool
  | none, none => false
  | none, some right => !right.isEmpty
  | some _, none => false
  | some left, some right =>
    let minSize := min left.length right.length
    match memcmp (left.take minSize) (right.take minSize) with
    | .lt => true
    | .gt => false
    | .eq => left.length < right.length

def compare (left right : SwByteArray) : Int :=
  if equal left right then 0 else if less left right then -1 else 1

/-- `ByteArrayHash_` -/
def hash (value : SwByteArray) : UInt64 :=
  (value.getD []).foldl (fun hash byte => (hash ^^^ byte.toUInt64) * 1099511628211)
    1469598103934665603

theorem equal_iff (left right : SwByteArray) : equal left right ↔ left = right := by
  rcases left with - | left <;> rcases right with - | right
  · exact iff_of_true rfl rfl
  · exact iff_of_false Bool.false_ne_true nofun
  · exact iff_of_false Bool.false_ne_true nofun
  rw [equal, Option.some_inj]
  split
  · rename_i lengths
    exact iff_of_false Bool.false_ne_true fun same => lengths (congrArg List.length same)
  rename_i lengths
  rw [not_not] at lengths
  split
  · rename_i empty
    rw [List.length_eq_zero_iff.mp empty, List.length_eq_zero_iff.mp (lengths.symm.trans empty)]
    exact iff_of_true rfl rfl
  · have ordered := memcmp_take left right
    rw [lengths, min_self, List.take_of_length_le lengths.le, List.take_length,
      Nat.compare_eq_eq.mpr rfl, Ordering.then_eq] at ordered
    rw [ordered, decide_eq_true_iff]
    rcases lt_trichotomy left right with below | rfl | above
    · simp [below, below.ne]
    · simp
    · simp [above, above.ne', above.not_gt]

/-- The order is that of the bytes, of which the null array has none. -/
theorem less_iff (left right : SwByteArray) :
    less left right ↔ left.getD [] < right.getD [] := by
  rcases left with - | left <;> rcases right with - | right
  · exact iff_of_false Bool.false_ne_true (lt_irrefl _)
  · cases right with
    | nil => exact iff_of_false Bool.false_ne_true (lt_irrefl _)
    | cons byte right => exact iff_of_true rfl (List.nil_lt_cons byte right)
  · exact iff_of_false Bool.false_ne_true (List.not_lt_nil left)
  have decided (shared : Ordering) : (match shared with
      | .lt => true
      | .gt => false
      | .eq => decide (left.length < right.length)) = true ↔
      shared.then (Ord.compare left.length right.length) = .lt := by
    cases shared <;> simp [Nat.compare_eq_lt]
  refine (decided _).trans ?_
  rw [memcmp_take]
  split
  · rename_i below
    exact iff_of_true rfl below
  · rename_i above
    refine iff_of_false ?_ above
    split <;> decide

/-- The operators and the hash agree on a pair, and the order goes on to any third array. -/
structure Coherent (left right : SwByteArray) : Prop where
  total : less left right ∨ equal left right ∨ less right left
  exclusive : ¬(less left right ∧ equal left right) ∧ ¬(less left right ∧ less right left) ∧
    ¬(equal left right ∧ less right left)
  negative : compare left right < 0 ↔ less left right
  zero : compare left right = 0 ↔ equal left right
  positive : 0 < compare left right ↔ less right left
  antisymmetric : compare right left = -compare left right
  hashed : equal left right → hash left = hash right
  transitive : ∀ other, less left right → less right other → less left other

/-- A pair is compared coherently unless one array is null and the other is empty. -/
theorem coherent_iff (left right : SwByteArray) :
    Coherent left right ↔ (left.getD [] = right.getD [] → left = right) := by
  constructor
  · intro coherent bytes
    have total := coherent.total
    rw [less_iff, less_iff, equal_iff, bytes] at total
    simpa using total
  · intro apart
    rcases lt_trichotomy (left.getD []) (right.getD []) with below | same | above
    · have other : left ≠ right := fun same => below.ne (congrArg (Option.getD · []) same)
      constructor <;> simp [compare, less_iff, equal_iff, below, other, other.symm, below.not_gt]
      exact fun other => below.trans
    · obtain rfl := apart same
      constructor <;> simp [compare, less_iff, equal_iff]
    · have other : left ≠ right := fun same => above.ne' (congrArg (Option.getD · []) same)
      constructor <;> simp [compare, less_iff, equal_iff, above, other, other.symm, above.not_gt]

theorem coherent_fails_of_empty : ¬∀ left right, Coherent left right := by
  intro all
  have total := (all none (some [])).total
  revert total
  decide

end SwByteArray
end SwStack.EmbeddedDb
