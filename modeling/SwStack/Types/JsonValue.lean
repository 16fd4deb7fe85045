import SwStack.Types.JsonParser
import SwStack.Types.SwString

/-! What the accessors of a JSON value convert it to, and its comparison. -/
namespace SwStack.Types

open SwStack.Lib

/-- The members of a JSON object. -/
abbrev JsonObject := List (Bytes × Json)

/-- Conversions between numbers and to and from their text, which the language and its library
define. -/
structure Numbers extends DoubleText where
  number : Double → Bytes
  ofInteger : Int64 → Double
  toInteger : Double → Int64
  isWhole : Double → Bool
  toLongLong : Bytes → Option Int64
  toDouble : Bytes → Option Double

namespace Double

def isNegative (value : Double) : Bool := 2 ^ 63 ≤ value.bits.toNat

def magnitude (value : Double) : Nat := value.bits.toNat % 2 ^ 63

def signed (value : Double) : Int := if value.isNegative then -value.magnitude else value.magnitude

def less (left right : Double) : Bool := !left.isNan && !right.isNan && left.signed < right.signed

end Double

namespace Json

def isNull : Json → Bool
  | .null => true
  | _ => false

def isDouble : Json → Bool
  | .double _ | .integer _ => true
  | _ => false

def isBool : Json → Bool
  | .boolean _ => true
  | _ => false

def isInt (numbers : Numbers) : Json → Bool
  | .integer _ => true
  | .double value => numbers.isWhole value
  | _ => false

def toBool : Json → Bool
  | .boolean value => value
  | .integer value => value ≠ 0
  | .double value => !value.isZero
  | _ => false

def toInteger (numbers : Numbers) : Json → Int64
  | .integer value => value
  | .boolean value => if value then 1 else 0
  | .double value => numbers.toInteger value
  | _ => 0

def toDouble (numbers : Numbers) : Json → Double
  | .double value => value
  | .integer value => numbers.ofInteger value
  | .boolean value => numbers.ofInteger (if value then 1 else 0)
  | _ => numbers.ofInteger 0

def toString (numbers : Numbers) : Json → Bytes
  | .string value => value
  | .boolean value => booleanText value
  | .integer value => SwString.number value
  | .double value => numbers.number value
  | _ => []

mutual

/-- `operator==`, where zeros are equal whatever their sign. -/
def equal : Json → Json → Bool
  | .null, .null => true
  | .boolean left, .boolean right => left = right
  | .integer left, .integer right => left = right
  | .double left, .double right => left.equal right
  | .string left, .string right => left = right
  | .array left, .array right => elementsEqual left right
  | .object left, .object right => membersEqual left right
  | _, _ => false

def elementsEqual : List Json → List Json → Bool
  | [], [] => true
  | left :: lefts, right :: rights => equal left right && elementsEqual lefts rights
  | _, _ => false

def membersEqual : List (Bytes × Json) → List (Bytes × Json) → Bool
  | [], [] => true
  | (leftKey, left) :: lefts, (rightKey, right) :: rights =>
    leftKey = rightKey && equal left right && membersEqual lefts rights
  | _, _ => false

end

end Json

namespace JsonObject

def contains (object : JsonObject) (key : Bytes) : Bool := (object.lookup key).isSome

/-- The value at a key, or null. -/
def value (object : JsonObject) (key : Bytes) : Json := (object.lookup key).getD .null

def insert (object : JsonObject) (key : Bytes) (value : Json) : JsonObject :=
  SortedMap.insertEntry key value object

def remove (object : JsonObject) (key : Bytes) : JsonObject :=
  object.filter fun member => member.1 ≠ key

end JsonObject

theorem lookup_cons_if (members : JsonObject) (member : Bytes × Json) (key : Bytes) :
    List.lookup key (member :: members) =
      if key = member.1 then some member.2 else members.lookup key := by
  rw [List.lookup_cons]
  split
  · rename_i same
    rw [if_pos (eq_of_beq same)]
  · rename_i different
    rw [if_neg (ne_of_beq_false different)]

theorem lookup_insert (object : JsonObject) (key other : Bytes) (value : Json) :
    (JsonObject.insert object key value).lookup other =
      if other = key then some value else object.lookup other := by
  unfold JsonObject.insert
  induction object with
  | nil => rw [SortedMap.insertEntry, lookup_cons_if]
  | cons first rest ih =>
    rw [SortedMap.insertEntry]
    split
    · rw [lookup_cons_if]
    · split
      · rename_i equal
        rw [lookup_cons_if, lookup_cons_if, ← equal]
        split <;> rfl
      · rename_i different
        rw [lookup_cons_if, ih, lookup_cons_if]
        by_cases same : other = first.1
        · rw [if_pos same, if_pos same, if_neg (same ▸ Ne.symm different)]
        · rw [if_neg same, if_neg same]

theorem value_insert (object : JsonObject) (key other : Bytes) (value : Json) :
    JsonObject.value (JsonObject.insert object key value) other =
      if other = key then value else JsonObject.value object other := by
  rw [JsonObject.value, lookup_insert]
  split
  · rfl
  · rfl

/-- Reads an object back from its bytes. -/
def parseJsonObject (numbers : Numbers) (bytes : Bytes) : Option JsonObject :=
  match fromJson numbers.toDoubleText bytes with
  | .ok (.object members) => some members
  | _ => none

/-- The bytes of an object. -/
def jsonBytes (numbers : Numbers) (object : JsonObject) : Bytes :=
  toJson numbers.toDoubleText false (.object object)

end SwStack.Types
