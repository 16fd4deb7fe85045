import SwStack.Lib.Reader

/-! Byte arrays: positions and lengths are `int`s there, so callers cast what they count. -/
namespace SwStack.Types

open SwStack.Lib

def maxInt : Nat := 2 ^ 31 - 1

/-- What `static_cast<int>` makes of an unsigned number. -/
def toInt (value : Nat) : Int := Int.bmod value (2 ^ 32)

def sanitizePosition (position : Int) (limit : Nat) : Nat :=
  if position < 0 then 0 else min position.toNat limit

/-- The bytes at a position, which must lie inside the array. -/
def slice (bytes : Bytes) (position length : Nat) : Option Bytes :=
  if position + length ≤ bytes.length then some ((bytes.drop position).take length) else none

def mid (bytes : Bytes) (position length : Int) : Option Bytes :=
  let start := sanitizePosition position bytes.length
  slice bytes start
    (if length < 0 then bytes.length - start else min length.toNat (bytes.length - start))

/-- What `mid` takes at a position and of a length that are cast to `int`; it never fails. -/
def foundAt (bytes : Bytes) (offset length : Nat) : Bytes :=
  (mid bytes (toInt offset) (toInt length)).getD []

def npos : Int := -1

/-- Where a byte first stands. -/
def indexOf (bytes : Bytes) (ch : UInt8) : Int :=
  match bytes.findIdx? (· == ch) with
  | none => npos
  | some position => toInt position

def contains (bytes : Bytes) (ch : UInt8) : Bool := indexOf bytes ch != npos

theorem toInt_of_le (small : value ≤ maxInt) : toInt value = value := by
  have bound : maxInt = 2147483647 := rfl
  unfold toInt
  rw [Int.bmod_eq_of_le] <;> omega

theorem toInt_eq_npos_iff (value : Nat) : toInt value = npos ↔ value % 2 ^ 32 = 2 ^ 32 - 1 := by
  unfold toInt npos
  rw [Int.bmod_def]
  split <;> omega

theorem contains_eq_false_iff (bytes : Bytes) (ch : UInt8) : contains bytes ch = false ↔
    ∀ position, bytes.findIdx? (· == ch) = some position → position % 2 ^ 32 = 2 ^ 32 - 1 := by
  rw [contains, indexOf, bne_eq_false_iff_eq]
  cases found : bytes.findIdx? (· == ch) with
  | none => exact iff_of_true rfl fun position here => by cases here
  | some position =>
    refine (toInt_eq_npos_iff position).trans ⟨fun cast other same => ?_, fun all => all _ rfl⟩
    cases same
    exact cast

theorem sanitizePosition_toInt (position limit : Nat) :
    sanitizePosition (toInt position) limit ≤ position := by
  unfold sanitizePosition toInt
  split
  · exact Nat.zero_le _
  · rw [Int.bmod_def] at *
    split at * <;> omega

theorem mid_total (bytes : Bytes) (position length : Int) :
    ∃ field, mid bytes position length = some field := by
  have within : sanitizePosition position bytes.length ≤ bytes.length := by
    unfold sanitizePosition
    split
    · exact Nat.zero_le _
    · exact min_le_right _ _
  unfold mid
  dsimp only
  rw [slice, if_pos]
  · exact ⟨_, rfl⟩
  · split <;> omega

theorem mid_toInt (inside : position + length ≤ bytes.length)
    (small : length ≤ maxInt) : mid bytes (toInt position) (toInt length) =
      some ((bytes.drop (sanitizePosition (toInt position) bytes.length)).take length) := by
  have before := sanitizePosition_toInt position bytes.length
  unfold mid
  dsimp only
  rw [toInt_of_le small, if_neg (by omega), Int.toNat_natCast, min_eq_left (by omega), slice,
    if_pos (by omega)]

theorem mid_of_short {before field after : Bytes} (short : (before ++ field).length ≤ maxInt) :
    mid (before ++ (field ++ after)) (toInt before.length) (toInt field.length) = some field := by
  rw [List.length_append] at short
  have position : sanitizePosition (toInt before.length) (before ++ (field ++ after)).length =
      before.length := by
    rw [toInt_of_le (by omega), sanitizePosition, if_neg (by omega), Int.toNat_natCast,
      min_eq_left (by simp)]
  rw [mid_toInt (by simp) (by omega), position, List.drop_left, List.take_left]

theorem foundAt_eq {before field after : Bytes} (short : (before ++ field).length ≤ maxInt) :
    foundAt (before ++ (field ++ after)) before.length field.length = field := by
  rw [foundAt, mid_of_short short, Option.getD_some]

end SwStack.Types
