import SwStack.Lib.Decimal
import SwStack.Types.ByteArray

/-! JSON values. An object keeps its members in the order of their keys; numbers are 64-bit
integers or doubles, whose text is the standard library's. -/
namespace SwStack.Types

open SwStack.Lib

/-- An IEEE double by its bits. -/
structure Double where
  bits : UInt64
  deriving DecidableEq

namespace Double

def exponent (value : Double) : Nat := value.bits.toNat / 2 ^ 52 % 2 ^ 11

def isFinite (value : Double) : Bool := value.exponent ≠ 2047

def isNan (value : Double) : Bool := value.exponent = 2047 && value.bits.toNat % 2 ^ 52 ≠ 0

def isZero (value : Double) : Bool := value.bits.toNat % 2 ^ 63 = 0

/-- The comparison of doubles: zeros are equal whatever their sign, and no NaN is. -/
def equal (left right : Double) : Bool :=
  !left.isNan && (left.bits = right.bits || (left.isZero && right.isZero))

end Double

inductive Json where
  | null
  | boolean (value : Bool)
  | integer (value : Int64)
  | double (value : Double)
  | string (value : Bytes)
  | array (elements : List Json)
  | object (members : List (Bytes × Json))

namespace Json

theorem induct {holds : Json → Prop} (null : holds .null) (boolean : ∀ value, holds (.boolean value))
    (integer : ∀ value, holds (.integer value)) (double : ∀ value, holds (.double value))
    (string : ∀ value, holds (.string value))
    (array : ∀ elements, (∀ element ∈ elements, holds element) → holds (.array elements))
    (object : ∀ members, (∀ member ∈ members, holds member.2) → holds (.object members))
    (value : Json) : holds value :=
  @Json.rec holds (fun elements => ∀ element ∈ elements, holds element)
    (fun members => ∀ member ∈ members, holds member.2) (fun member => holds member.2)
    null boolean integer double string array object
    (fun _ member => absurd member List.not_mem_nil)
    (fun _ _ head tail _ member => (List.mem_cons.mp member).elim (fun same => same ▸ head)
      (tail _))
    (fun _ member => absurd member List.not_mem_nil)
    (fun _ _ head tail _ member => (List.mem_cons.mp member).elim (fun same => same ▸ head)
      (tail _))
    (fun _ _ held => held) value

mutual

/-- Whether every number of the tree is finite. -/
def isFinite : Json → Bool
  | .double value => value.isFinite
  | .array elements => elementsFinite elements
  | .object members => membersFinite members
  | _ => true

def elementsFinite : List Json → Bool
  | [] => true
  | element :: rest => isFinite element && elementsFinite rest

def membersFinite : List (Bytes × Json) → Bool
  | [] => true
  | (_, value) :: rest => isFinite value && membersFinite rest

end

mutual

/-- Whether every object keeps its members in the order of their distinct keys. -/
def isOrdered : Json → Prop
  | .array elements => elementsOrdered elements
  | .object members => (members.map Prod.fst).Pairwise (· < ·) ∧ membersOrdered members
  | _ => True

def elementsOrdered : List Json → Prop
  | [] => True
  | element :: rest => isOrdered element ∧ elementsOrdered rest

def membersOrdered : List (Bytes × Json) → Prop
  | [] => True
  | (_, value) :: rest => isOrdered value ∧ membersOrdered rest

end

end Json

/-- How the standard library writes doubles, with 17 digits in the classic locale, and reads
them: the value and where reading stopped. -/
structure DoubleText where
  format : Double → Bytes
  strtod : Bytes → Double × Nat

namespace DoubleText

def literal (numbers : DoubleText) (value : Double) : Bytes :=
  let text := numbers.format value
  if value.isFinite ∧ ¬ text.any fun byte => byte = 0x2e || byte = 0x65 || byte = 0x45 then
    text ++ [0x2e, 0x30]
  else text

/-- Finite doubles are written as numerals and survive their own literal. -/
structure Faithful (numbers : DoubleText) : Prop where
  numeral : ∀ value : Double, value.isFinite = true →
    ∃ numeral : Numeral, numeral.Valid ∧ numbers.format value = numeral.text
  survives : ∀ value : Double, value.isFinite = true →
    numbers.strtod (numbers.literal value) = (value, (numbers.literal value).length)

end DoubleText

def isSpace (byte : UInt8) : Bool := byte = 0x20 || (0x09 ≤ byte && byte ≤ 0x0d)

def isAlpha (byte : UInt8) : Bool :=
  (0x41 ≤ byte && byte ≤ 0x5a) || (0x61 ≤ byte && byte ≤ 0x7a)

/-- What `strtoll` returns in base ten: a value, where it stopped, and ERANGE. -/
structure Conversion where
  value : Int64
  stop : Nat
  outOfRange : Bool
  deriving DecidableEq

def strtoll (text : Bytes) : Conversion :=
  let spaces := (text.takeWhile isSpace).length
  let signed := text.drop spaces
  let sign := if signed.head? = some 0x2d ∨ signed.head? = some 0x2b then 1 else 0
  let digits := (signed.drop sign).takeWhile isDigit
  let magnitude : Int := ofDecimal digits
  let value := if signed.head? = some 0x2d then -magnitude else magnitude
  if digits = [] then { value := 0, stop := 0, outOfRange := false }
  else if value < Int64.minValue.toInt then
    { value := Int64.minValue, stop := spaces + sign + digits.length, outOfRange := true }
  else if Int64.maxValue.toInt < value then
    { value := Int64.maxValue, stop := spaces + sign + digits.length, outOfRange := true }
  else { value := Int64.ofInt value, stop := spaces + sign + digits.length, outOfRange := false }

namespace SwString

/-- `mid` of a string, whose size it casts. -/
def mid (text : Bytes) (position length : Int) : Bytes :=
  let size := toInt text.length
  if position < 0 ∨ size ≤ position then []
  else
    let taken := if length < 0 ∨ size < position + length then size - position else length
    (text.drop position.toNat).take taken.toNat

/-- `number` of an integer. -/
def number (value : Int64) : Bytes := integerText value.toInt

end SwString

end SwStack.Types
