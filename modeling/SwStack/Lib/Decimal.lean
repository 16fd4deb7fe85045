import SwStack.Lib.Reader

/-! Decimal numerals in ASCII. A numeral is its sign, its whole part without leading zeros, and
perhaps a fraction and an exponent; what follows it may not continue it. -/
namespace SwStack.Lib

open List

def isDigit (byte : UInt8) : Bool := 0x30 ≤ byte && byte ≤ 0x39

def digit (value : Nat) : UInt8 := UInt8.ofNat (0x30 + value)

def decimalDigits : Nat → Nat → Bytes
  | 0, _ => []
  | fuel + 1, value =>
    if value < 10 then [digit value]
    else decimalDigits fuel (value / 10) ++ [digit (value % 10)]

/-- The digits of a number, the highest first. -/
def decimal (value : Nat) : Bytes := decimalDigits (value + 1) value

def ofDecimal (digits : Bytes) : Nat :=
  digits.foldl (fun value byte => value * 10 + (byte.toNat - 0x30)) 0

theorem toNat_digit (small : value < 10) : (digit value).toNat = 0x30 + value :=
  UInt8.toNat_ofNat_of_lt' (by change 0x30 + value < 256; omega)

theorem isDigit_iff : isDigit byte = true ↔ 0x30 ≤ byte.toNat ∧ byte.toNat ≤ 0x39 := by
  rw [isDigit, Bool.and_eq_true, decide_eq_true_iff, decide_eq_true_iff, UInt8.le_iff_toNat_le,
    UInt8.le_iff_toNat_le]
  rfl

theorem isDigit_digit (small : value < 10) : isDigit (digit value) = true := by
  rw [isDigit_iff, toNat_digit small]
  omega

theorem decimalDigits_spec (enough : value < fuel) : ofDecimal (decimalDigits fuel value) = value ∧
    ∀ byte ∈ decimalDigits fuel value, isDigit byte = true := by
  induction fuel generalizing value with
  | zero => omega
  | succ fuel ih =>
    rw [decimalDigits]
    split
    · rename_i small
      constructor
      · rw [ofDecimal, foldl_cons, foldl_nil, toNat_digit small]
        omega
      · intro byte member
        rw [mem_singleton.mp member]
        exact isDigit_digit small
    · obtain ⟨read, digits⟩ := @ih (value / 10) (by omega)
      have last : value % 10 < 10 := Nat.mod_lt _ (by decide)
      constructor
      · rw [ofDecimal, foldl_append]
        change List.foldl _ (ofDecimal (decimalDigits fuel (value / 10))) _ = _
        rw [read, foldl_cons, foldl_nil, toNat_digit last]
        omega
      · intro byte member
        rcases mem_append.mp member with early | late
        · exact digits byte early
        · rw [mem_singleton.mp late]
          exact isDigit_digit last

@[simp] theorem ofDecimal_decimal (value : Nat) : ofDecimal (decimal value) = value :=
  (decimalDigits_spec (Nat.lt_succ_self value)).1

theorem isDigit_of_mem_decimal (member : byte ∈ decimal value) : isDigit byte = true :=
  (decimalDigits_spec (Nat.lt_succ_self value)).2 byte member

/-- A whole part: digits, and no zero before another one. -/
def IsWhole (digits : Bytes) : Prop :=
  (∀ byte ∈ digits, isDigit byte = true) ∧ digits ≠ [] ∧
    (digits.head? = some 0x30 → digits.length = 1)

theorem decimalDigits_whole (enough : value < fuel) : decimalDigits fuel value ≠ [] ∧
      ((decimalDigits fuel value).head? = some 0x30 → (decimalDigits fuel value).length = 1) ∧
      ((decimalDigits fuel value).head? = some 0x30 → value = 0) := by
  induction fuel generalizing value with
  | zero => omega
  | succ fuel ih =>
    rw [decimalDigits]
    split
    · rename_i small
      refine ⟨by simp, fun _ => rfl, fun zero => ?_⟩
      have same := congrArg UInt8.toNat (Option.some.inj zero)
      rw [toNat_digit small] at same
      change 0x30 + value = 0x30 at same
      omega
    · obtain ⟨filled, -, positive⟩ := @ih (value / 10) (by omega)
      have front : (decimalDigits fuel (value / 10) ++ [digit (value % 10)]).head? =
          (decimalDigits fuel (value / 10)).head? := by
        cases digits : decimalDigits fuel (value / 10) with
        | nil => exact absurd digits filled
        | cons first rest => rfl
      rw [front]
      refine ⟨by simp, fun zero => ?_, fun zero => ?_⟩
      · have nothing := positive zero
        omega
      · have nothing := positive zero
        omega

theorem decimal_whole (value : Nat) : IsWhole (decimal value) := by
  obtain ⟨filled, single, -⟩ := decimalDigits_whole (Nat.lt_succ_self value)
  exact ⟨fun _ => isDigit_of_mem_decimal, filled, single⟩

/-- The parts of a numeral after its sign. -/
structure Numeral where
  negative : Bool
  whole : Bytes
  fraction : Option Bytes
  exponent : Option (Bytes × Bytes)

namespace Numeral

def sign (numeral : Numeral) : Bytes := if numeral.negative then [0x2d] else []

def fractionText (numeral : Numeral) : Bytes := numeral.fraction.elim [] (0x2e :: ·)

def exponentText (numeral : Numeral) : Bytes :=
  numeral.exponent.elim [] fun exponent => 0x65 :: (exponent.1 ++ exponent.2)

def text (numeral : Numeral) : Bytes :=
  numeral.sign ++ (numeral.whole ++ (numeral.fractionText ++ numeral.exponentText))

/-- Whether it has a fraction or an exponent. -/
def isFloating (numeral : Numeral) : Bool := numeral.fraction.isSome || numeral.exponent.isSome

structure Valid (numeral : Numeral) : Prop where
  whole : IsWhole numeral.whole
  fraction : ∀ digits, numeral.fraction = some digits →
    (∀ byte ∈ digits, isDigit byte = true) ∧ digits ≠ []
  exponent : ∀ sign digits, numeral.exponent = some (sign, digits) →
    (sign = [] ∨ sign = [0x2b] ∨ sign = [0x2d]) ∧
      (∀ byte ∈ digits, isDigit byte = true) ∧ digits ≠ []

end Numeral

/-- Decimal text of an integer. -/
def integerText (value : Int) : Bytes :=
  if value < 0 then 0x2d :: decimal value.natAbs else decimal value.natAbs

def Numeral.ofInt (value : Int) : Numeral :=
  { negative := value < 0, whole := decimal value.natAbs, fraction := none, exponent := none }

theorem Numeral.text_ofInt (value : Int) : (ofInt value).text = integerText value := by
  by_cases negative : value < 0
  · simp [text, ofInt, sign, fractionText, exponentText, integerText, negative]
  · simp [text, ofInt, sign, fractionText, exponentText, integerText, negative]

theorem Numeral.valid_ofInt (value : Int) : (ofInt value).Valid where
  whole := decimal_whole _
  fraction _ same := by cases same
  exponent _ _ same := by cases same

end SwStack.Lib
