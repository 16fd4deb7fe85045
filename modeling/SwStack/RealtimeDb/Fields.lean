import SwStack.Types.JsonSize

/-! The fields of a request to the realtime database: required strings, names of tables and
revisions in decimal. -/
namespace SwStack.RealtimeDb

open SwStack.Lib SwStack.Types List

def kJournalSize : Nat := 256
def kJournalBytes : Nat := 256 * 1024

def requiredString (object : JsonObject) (field : String) (maxLength : Nat) :
    Except String Bytes :=
  match object.value (ascii field) with
  | .string result =>
    if result = [] ∨ maxLength < result.length then .error ("invalid string length: " ++ field)
    else .ok result
  | _ => .error ("expected string: " ++ field)

/-- Letters, digits, the underscore, the dot and the hyphen. -/
def isNameCharacter (c : UInt8) : Bool :=
  (0x61 ≤ c && c ≤ 0x7a) || (0x41 ≤ c && c ≤ 0x5a) || (0x30 ≤ c && c ≤ 0x39) ||
    c = 0x5f || c = 0x2e || c = 0x2d

def reservedNames : List Bytes := [ascii "__proto__", ascii "prototype", ascii "constructor"]

def validateName (name : Bytes) : Except String Unit :=
  if name = [] ∨ 128 < name.length then .error "invalid name length"
  else if ¬ name.all isNameCharacter then
    .error "names allow only letters, digits, _, . and -"
  else if name ∈ reservedNames then .error "reserved name"
  else .ok ()

def parseDigit (result : Nat) (c : UInt8) : Except String Nat :=
  if c < 0x30 ∨ 0x39 < c ∨ (2 ^ 64 - 1 - (c.toNat - 0x30)) / 10 < result then
    .error "invalid revision"
  else .ok (result * 10 + (c.toNat - 0x30))

/-- A decimal number of 64 bits. -/
def parseRevision (text : Bytes) : Except String Nat :=
  if text = [] ∨ 20 < text.length then .error "invalid revision"
  else text.foldlM parseDigit 0

theorem length_of_validateName (valid : validateName name = .ok ()) :
    name ≠ [] ∧ name.length ≤ 128 := by
  rw [validateName] at valid
  split at valid
  · cases valid
  · rename_i sized
    exact ⟨fun empty => sized (.inl empty), Nat.not_lt.mp fun long => sized (.inr long)⟩

theorem parseDigit_digit {result next : Nat} (small : next < 10)
    (fits : result * 10 + next < 2 ^ 64) :
    parseDigit result (digit next) = .ok (result * 10 + next) := by
  have value := toNat_digit small
  have low : ¬ digit next < 0x30 := by
    rw [UInt8.lt_iff_toNat_lt, value]
    change ¬ _ < 0x30
    omega
  have high : ¬ 0x39 < digit next := by
    rw [UInt8.lt_iff_toNat_lt, value]
    change ¬ 0x39 < _
    omega
  have room : ¬ (2 ^ 64 - 1 - ((digit next).toNat - 0x30)) / 10 < result := by
    rw [value]
    omega
  rw [parseDigit, if_neg (by simp only [low, high, room, or_self, not_false_eq_true]), value]
  congr 1
  omega

theorem length_decimal_le (small : value < 10 ^ digits) (above : 0 < digits) :
    (decimal value).length ≤ digits := by
  have within : ∀ {fuel value digits : Nat}, value < 10 ^ digits → 0 < digits →
      (decimalDigits fuel value).length ≤ digits := by
    intro fuel
    induction fuel with
    | zero => exact fun _ _ => Nat.zero_le _
    | succ fuel ih =>
      intro value digits small above
      rw [decimalDigits]
      split
      · exact above
      · rename_i large
        obtain ⟨rest, rfl⟩ := Nat.exists_eq_succ_of_ne_zero above.ne'
        rw [Nat.pow_succ] at small
        have positive : 0 < rest := by
          rcases Nat.eq_zero_or_pos rest with rfl | positive
          · omega
          · exact positive
        have shorter := @ih (value / 10) rest (by omega) positive
        rw [length_append, length_singleton]
        omega
  exact within small above

theorem decimal_ne_nil (value : Nat) : decimal value ≠ [] :=
  (decimalDigits_whole (Nat.lt_succ_self value)).1

theorem parseRevision_decimal (small : value < 2 ^ 64) :
    parseRevision (decimal value) = .ok value := by
  have digits : ∀ {fuel value : Nat}, value < fuel → value < 2 ^ 64 →
      (decimalDigits fuel value).foldlM parseDigit 0 = .ok value := by
    intro fuel
    induction fuel with
    | zero => exact fun enough => absurd enough (Nat.not_lt_zero _)
    | succ fuel ih =>
      intro value enough small
      rw [decimalDigits]
      split
      · rename_i single
        rw [foldlM_cons, parseDigit_digit single (by omega)]
        simp [bind, Except.bind, pure, Except.pure]
      · rw [foldlM_append, ih (by omega) (by omega)]
        have last := @parseDigit_digit (value / 10) (value % 10) (by omega) (by omega)
        simp only [bind, Except.bind, foldlM_cons, foldlM_nil, last, pure, Except.pure]
        congr 1
        omega
  have short : (decimal value).length ≤ 20 := length_decimal_le (by omega) (by omega)
  rw [parseRevision, if_neg (by simp [decimal_ne_nil, short])]
  exact digits (Nat.lt_succ_self value) small

end SwStack.RealtimeDb
