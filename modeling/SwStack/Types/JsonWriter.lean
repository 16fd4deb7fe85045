import SwStack.Types.Json

/-! The two JSON writers. The document writes itself compactly or indented; values, objects and
arrays write themselves inline with a layout of their own. -/
open List

namespace SwStack.Types

open SwStack.Lib

def hexDigit (value : Nat) : UInt8 :=
  if value < 10 then UInt8.ofNat (0x30 + value) else UInt8.ofNat (0x41 + (value - 10))

def needsEscape (byte : UInt8) : Bool := byte < 0x20 || byte = 0x22 || byte = 0x5c

def escapeByte (byte : UInt8) : Bytes :=
  if ¬ needsEscape byte then [byte]
  else if byte = 0x22 then [0x5c, 0x22]
  else if byte = 0x5c then [0x5c, 0x5c]
  else if byte = 0x08 then [0x5c, 0x62]
  else if byte = 0x0c then [0x5c, 0x66]
  else if byte = 0x0a then [0x5c, 0x6e]
  else if byte = 0x0d then [0x5c, 0x72]
  else if byte = 0x09 then [0x5c, 0x74]
  else [0x5c, 0x75, 0x30, 0x30, hexDigit (byte.toNat / 16), hexDigit (byte.toNat % 16)]

def escapeString (value : Bytes) : Bytes := value.flatMap escapeByte

def quoted (value : Bytes) : Bytes := 0x22 :: (escapeString value ++ [0x22])

def nullText : Bytes := [0x6e, 0x75, 0x6c, 0x6c]

def booleanText (value : Bool) : Bytes :=
  if value then [0x74, 0x72, 0x75, 0x65] else [0x66, 0x61, 0x6c, 0x73, 0x65]

def indentation (indentLevel : Nat) : Bytes := List.replicate (indentLevel * 2) 0x20

variable (numbers : DoubleText)

mutual

def generateJson (pretty : Bool) (indentLevel : Nat) : Json → Bytes
  | .string value => quoted value
  | .boolean value => booleanText value
  | .integer value => SwString.number value
  | .double value => numbers.literal value
  | .null => nullText
  | .object [] => [0x7b, 0x7d]
  | .object (member :: members) =>
    (if pretty then [0x7b, 0x0a] else [0x7b]) ++
      generateMembers pretty indentLevel true (member :: members) ++
      (if pretty then 0x0a :: indentation indentLevel else []) ++ [0x7d]
  | .array [] => [0x5b, 0x5d]
  | .array (element :: elements) =>
    (if pretty then [0x5b, 0x0a] else [0x5b]) ++
      generateElements pretty indentLevel true (element :: elements) ++
      (if pretty then 0x0a :: indentation indentLevel else []) ++ [0x5d]

def generateMembers (pretty : Bool) (indentLevel : Nat) (first : Bool) :
    List (Bytes × Json) → Bytes
  | [] => []
  | (key, value) :: members =>
    (if first then [] else if pretty then [0x2c, 0x0a] else [0x2c]) ++
      (if pretty then indentation (indentLevel + 1) else []) ++ quoted key ++ [0x3a, 0x20] ++
      generateJson pretty (indentLevel + 1) value ++
      generateMembers pretty indentLevel false members

def generateElements (pretty : Bool) (indentLevel : Nat) (first : Bool) : List Json → Bytes
  | [] => []
  | element :: elements =>
    (if first then [] else if pretty then [0x2c, 0x0a] else [0x2c]) ++
      (if pretty then indentation (indentLevel + 1) else []) ++
      generateJson pretty (indentLevel + 1) element ++
      generateElements pretty indentLevel false elements

end

/-- `toJson` of a document, without a key to encrypt under. -/
def toJson (pretty : Bool) (value : Json) : Bytes := generateJson numbers pretty 0 value

mutual

def appendJsonValue (compact : Bool) (indentLevel : Nat) : Json → Bytes
  | .string value => quoted value
  | .boolean value => booleanText value
  | .integer value => SwString.number value
  | .double value => numbers.literal value
  | .object members =>
    [0x7b] ++ appendMembers compact indentLevel true members ++
      (if ¬ compact ∧ members ≠ [] then 0x0a :: indentation indentLevel else []) ++ [0x7d]
  | .array elements =>
    (if compact then [0x5b] else [0x5b, 0x0a]) ++
      appendElements compact indentLevel true elements ++
      (if ¬ compact ∧ elements ≠ [] then 0x0a :: indentation indentLevel else []) ++ [0x5d]
  | .null => nullText

def appendMembers (compact : Bool) (indentLevel : Nat) (first : Bool) :
    List (Bytes × Json) → Bytes
  | [] => []
  | (key, value) :: members =>
    (if first then [] else if compact then [0x2c] else [0x2c, 0x0a]) ++
      (if compact then [] else 0x0a :: indentation (indentLevel + 1)) ++ quoted key ++ [0x3a] ++
      (if compact then [] else [0x20]) ++ appendJsonValue compact (indentLevel + 1) value ++
      appendMembers compact indentLevel false members

def appendElements (compact : Bool) (indentLevel : Nat) (first : Bool) : List Json → Bytes
  | [] => []
  | element :: elements =>
    (if first then [] else if compact then [0x2c] else [0x2c, 0x0a]) ++
      (if compact then [] else indentation (indentLevel + 1)) ++
      appendJsonValue compact (indentLevel + 1) element ++
      appendElements compact indentLevel false elements

end

def toJsonString (compact : Bool) (indentLevel : Nat) (value : Json) : Bytes :=
  appendJsonValue numbers compact indentLevel value

end SwStack.Types

/-! The common form of what both writers write: the tokens of a value with white space between
them, which a layout chooses. -/
namespace SwStack.Types

open SwStack.Lib

def Blank (bytes : Bytes) : Prop := ∀ byte ∈ bytes, isSpace byte = true

/-- The white space of a writer, by the level it writes at. -/
structure Layout where
  beforeMember : Bool → Nat → Bytes
  beforeColonValue : Bytes
  afterMembers : Nat → Bytes
  beforeElement : Bool → Nat → Bytes
  afterElements : Nat → Bytes
  emptyArray : Bytes
  beforeMember_blank : ∀ first level, Blank (beforeMember first level)
  beforeColonValue_blank : Blank beforeColonValue
  afterMembers_blank : ∀ level, Blank (afterMembers level)
  beforeElement_blank : ∀ first level, Blank (beforeElement first level)
  afterElements_blank : ∀ level, Blank (afterElements level)
  emptyArray_blank : Blank emptyArray

theorem blank_nil : Blank [] := fun _ member => absurd member not_mem_nil

theorem blank_cons (space : isSpace byte = true) (blank : Blank bytes) : Blank (byte :: bytes) := by
  intro other member
  rcases mem_cons.mp member with rfl | member
  · exact space
  · exact blank other member

theorem blank_indentation (indentLevel : Nat) : Blank (indentation indentLevel) := by
  intro byte member
  rw [eq_of_mem_replicate member]
  rfl

theorem blank_line (indentLevel : Nat) : Blank (0x0a :: indentation indentLevel) :=
  blank_cons rfl (blank_indentation indentLevel)

/-- A line of its own for every member and element. -/
def lines (indented : Bool) (level : Nat) : Bytes :=
  if indented then 0x0a :: indentation level else []

theorem blank_lines (indented : Bool) (level : Nat) : Blank (lines indented level) := by
  cases indented with
  | true => exact blank_line level
  | false => exact blank_nil

def documentLayout (pretty : Bool) : Layout where
  beforeMember _ level := lines pretty (level + 1)
  beforeColonValue := [0x20]
  afterMembers level := lines pretty level
  beforeElement _ level := lines pretty (level + 1)
  afterElements level := lines pretty level
  emptyArray := []
  beforeMember_blank _ _ := blank_lines _ _
  beforeColonValue_blank := blank_cons rfl blank_nil
  afterMembers_blank _ := blank_lines _ _
  beforeElement_blank _ _ := blank_lines _ _
  afterElements_blank _ := blank_lines _ _
  emptyArray_blank := blank_nil

/-- Inline members after the first have an empty line before them. -/
def inlineLayout (compact : Bool) : Layout where
  beforeMember first level :=
    if compact then [] else if first then 0x0a :: indentation (level + 1)
    else 0x0a :: 0x0a :: indentation (level + 1)
  beforeColonValue := if compact then [] else [0x20]
  afterMembers level := lines (!compact) level
  beforeElement _ level := lines (!compact) (level + 1)
  afterElements level := lines (!compact) level
  emptyArray := if compact then [] else [0x0a]
  beforeMember_blank first level := by
    cases compact with
    | true => exact blank_nil
    | false =>
      cases first with
      | true => exact blank_line _
      | false => exact blank_cons rfl (blank_line _)
  beforeColonValue_blank := by
    cases compact with
    | true => exact blank_nil
    | false => exact blank_cons rfl blank_nil
  afterMembers_blank _ := blank_lines _ _
  beforeElement_blank _ _ := blank_lines _ _
  afterElements_blank _ := blank_lines _ _
  emptyArray_blank := by
    cases compact with
    | true => exact blank_nil
    | false => exact blank_cons rfl blank_nil

variable (numbers : DoubleText) (layout : Layout)

def Layout.comma (first : Bool) : Bytes := if first then [] else [0x2c]

/-- What stands between the values of an object: a comma, the key and a colon. -/
def Layout.memberHead (level : Nat) (first : Bool) (key : Bytes) : Bytes :=
  comma first ++ layout.beforeMember first level ++ quoted key ++ 0x3a :: layout.beforeColonValue

def Layout.elementHead (level : Nat) (first : Bool) : Bytes :=
  comma first ++ layout.beforeElement first level

mutual

def render (level : Nat) : Json → Bytes
  | .null => nullText
  | .boolean value => booleanText value
  | .integer value => SwString.number value
  | .double value => numbers.literal value
  | .string value => quoted value
  | .object [] => [0x7b, 0x7d]
  | .object (member :: members) => 0x7b :: renderMembers level true (member :: members)
  | .array [] => 0x5b :: (layout.emptyArray ++ [0x5d])
  | .array (element :: elements) => 0x5b :: renderElements level true (element :: elements)

/-- Members up to the closing brace. -/
def renderMembers (level : Nat) (first : Bool) : List (Bytes × Json) → Bytes
  | [] => layout.afterMembers level ++ [0x7d]
  | (key, value) :: members =>
    layout.memberHead level first key ++
      (render (level + 1) value ++ renderMembers level false members)

/-- Elements up to the closing bracket. -/
def renderElements (level : Nat) (first : Bool) : List Json → Bytes
  | [] => layout.afterElements level ++ [0x5d]
  | element :: elements =>
    layout.elementHead level first ++
      (render (level + 1) element ++ renderElements level false elements)

end

theorem generateMembers_eq
    (each : ∀ member ∈ members, ∀ level, generateJson numbers pretty level member.2 =
      render numbers (documentLayout pretty) level member.2) (nonempty : first = true → members ≠ []) :
    (if first && pretty then [0x0a] else []) ++ generateMembers numbers pretty level first members ++
      lines pretty level ++ [0x7d] =
      renderMembers numbers (documentLayout pretty) level first members := by
  induction members generalizing first with
  | nil =>
    cases first with
    | true => exact absurd rfl (nonempty rfl)
    | false => simp [generateMembers, renderMembers, documentLayout]
  | cons member members ih =>
    have rest := @ih false (fun other inside => each other (mem_cons_of_mem _ inside))
      fun same => by cases same
    have here := each member mem_cons_self (level + 1)
    rw [generateMembers, renderMembers, ← rest, here]
    cases first <;> cases pretty <;>
      simp [Layout.memberHead, Layout.comma, documentLayout, lines]

theorem generateElements_eq
    (each : ∀ element ∈ elements, ∀ level, generateJson numbers pretty level element =
      render numbers (documentLayout pretty) level element) (nonempty : first = true → elements ≠ []) :
    (if first && pretty then [0x0a] else []) ++
      generateElements numbers pretty level first elements ++ lines pretty level ++ [0x5d] =
      renderElements numbers (documentLayout pretty) level first elements := by
  induction elements generalizing first with
  | nil =>
    cases first with
    | true => exact absurd rfl (nonempty rfl)
    | false => simp [generateElements, renderElements, documentLayout]
  | cons element elements ih =>
    have rest := @ih false (fun other inside => each other (mem_cons_of_mem _ inside))
      fun same => by cases same
    have here := each element mem_cons_self (level + 1)
    rw [generateElements, renderElements, ← rest, here]
    cases first <;> cases pretty <;>
      simp [Layout.elementHead, Layout.comma, documentLayout, lines]

theorem generateJson_eq (pretty : Bool) (level : Nat) (value : Json) :
    generateJson numbers pretty level value =
      render numbers (documentLayout pretty) level value := by
  induction value using Json.induct generalizing level with
  | array elements ih =>
    cases elements with
    | nil => simp [generateJson, render, documentLayout]
    | cons element elements =>
      rw [generateJson, render, ← generateElements_eq numbers ih (fun _ => cons_ne_nil _ _)]
      cases pretty <;> simp [lines]
  | object members ih =>
    cases members with
    | nil => simp [generateJson, render]
    | cons member members =>
      rw [generateJson, render, ← generateMembers_eq numbers ih (fun _ => cons_ne_nil _ _)]
      cases pretty <;> simp [lines]
  | _ => simp [generateJson, render]

theorem appendMembers_eq
    (each : ∀ member ∈ members, ∀ level, appendJsonValue numbers compact level member.2 =
      render numbers (inlineLayout compact) level member.2) :
    appendMembers numbers compact level first members ++ lines (!compact) level ++ [0x7d] =
      renderMembers numbers (inlineLayout compact) level first members := by
  induction members generalizing first with
  | nil => simp [appendMembers, renderMembers, inlineLayout]
  | cons member members ih =>
    have rest := @ih false fun other inside => each other (mem_cons_of_mem _ inside)
    have here := each member mem_cons_self (level + 1)
    rw [appendMembers, renderMembers, ← rest, here]
    cases first <;> cases compact <;>
      simp [Layout.memberHead, Layout.comma, inlineLayout, lines]

theorem appendElements_eq
    (each : ∀ element ∈ elements, ∀ level, appendJsonValue numbers compact level element =
      render numbers (inlineLayout compact) level element) (nonempty : first = true → elements ≠ []) :
    (if first && !compact then [0x0a] else []) ++
      appendElements numbers compact level first elements ++ lines (!compact) level ++ [0x5d] =
      renderElements numbers (inlineLayout compact) level first elements := by
  induction elements generalizing first with
  | nil =>
    cases first with
    | true => exact absurd rfl (nonempty rfl)
    | false => simp [appendElements, renderElements, inlineLayout]
  | cons element elements ih =>
    have rest := @ih false (fun other inside => each other (mem_cons_of_mem _ inside))
      fun same => by cases same
    have here := each element mem_cons_self (level + 1)
    rw [appendElements, renderElements, ← rest, here]
    cases first <;> cases compact <;>
      simp [Layout.elementHead, Layout.comma, inlineLayout, lines]

theorem appendJsonValue_eq (compact : Bool) (level : Nat) (value : Json) :
    appendJsonValue numbers compact level value =
      render numbers (inlineLayout compact) level value := by
  induction value using Json.induct generalizing level with
  | array elements ih =>
    cases elements with
    | nil => cases compact <;> simp [appendJsonValue, appendElements, render, inlineLayout]
    | cons element elements =>
      rw [appendJsonValue, render,
        ← appendElements_eq numbers ih (fun _ => cons_ne_nil _ _)]
      cases compact <;> simp [lines]
  | object members ih =>
    cases members with
    | nil => cases compact <;> simp [appendJsonValue, appendMembers, render]
    | cons member members =>
      rw [appendJsonValue, render, ← appendMembers_eq numbers ih]
      cases compact <;> simp [lines]
  | _ => simp [appendJsonValue, render]

end SwStack.Types
