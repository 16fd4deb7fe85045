import SwStack.Lib.Checked
import SwStack.Types.JsonText

/-! The exact compact size of a JSON document, counted up to a limit without writing it out. What
is not nested too deep and has finite doubles is counted as the length of what is written for it,
or it is over the limit. -/
namespace SwStack.Types

open SwStack.Lib List

variable (numbers : Numbers) (limit maxDepth : Nat)

def addSize (size bytes : Nat) : Except String Nat :=
  if limit - size < bytes then .error "JSON exceeds size limit" else .ok (size + bytes)

/-- A quotation mark, a backslash and the control characters with a letter of their own take two
bytes, the other control characters six. -/
def characterSize (character : UInt8) : Nat :=
  if character ∈ [0x22, 0x5c, 0x08, 0x0c, 0x0a, 0x0d, 0x09] then 2
  else if character < 32 then 6 else 1

def addString (size : Nat) (text : Bytes) : Except String Nat := do
  let size ← addSize limit size 2
  text.foldlM (fun size character => addSize limit size (characterSize character)) size

/-- The comma before all but the first. -/
def addSeparator (size : Nat) (first : Bool) : Except String Nat :=
  if first then .ok size else addSize limit size 1

mutual

def addValue (size depth : Nat) : Json → Except String Nat
  | .object members =>
    if maxDepth < depth then .error "JSON nesting exceeds depth limit"
    else do
      let size ← addSize limit size 2
      addMembers size depth true members
  | .array elements =>
    if maxDepth < depth then .error "JSON nesting exceeds depth limit"
    else do
      let size ← addSize limit size 2
      addElements size depth true elements
  | .string text =>
    if maxDepth < depth then .error "JSON nesting exceeds depth limit"
    else addString limit size text
  | .integer value =>
    if maxDepth < depth then .error "JSON nesting exceeds depth limit"
    else addSize limit size (SwString.number value).length
  | .double value =>
    if maxDepth < depth then .error "JSON nesting exceeds depth limit"
    else if ¬ value.isFinite then .error "non-finite JSON number"
    else addSize limit size (numbers.literal value).length
  | .boolean value =>
    if maxDepth < depth then .error "JSON nesting exceeds depth limit"
    else addSize limit size (if value then 4 else 5)
  | .null =>
    if maxDepth < depth then .error "JSON nesting exceeds depth limit" else addSize limit size 4

def addMembers (size depth : Nat) (first : Bool) : List (Bytes × Json) → Except String Nat
  | [] => .ok size
  | (key, value) :: rest => do
    let size ← addSeparator limit size first
    let size ← addString limit size key
    let size ← addSize limit size 1
    let size ← addValue size (depth + 1) value
    addMembers size depth false rest

def addElements (size depth : Nat) (first : Bool) : List Json → Except String Nat
  | [] => .ok size
  | value :: rest => do
    let size ← addSeparator limit size first
    let size ← addValue size (depth + 1) value
    addElements size depth false rest

end

/-- The size of an object, from an empty count. -/
def objectSize (object : JsonObject) : Except String Nat :=
  addValue numbers limit maxDepth 0 0 (.object object)

def stringSize (text : Bytes) : Nat := 2 + (text.map characterSize).sum

mutual

def compactSize : Json → Nat
  | .object members => 2 + membersSize true members
  | .array elements => 2 + elementsSize true elements
  | .string text => stringSize text
  | .integer value => (SwString.number value).length
  | .double value => (numbers.literal value).length
  | .boolean value => if value then 4 else 5
  | .null => 4

def membersSize (first : Bool) : List (Bytes × Json) → Nat
  | [] => 0
  | (key, value) :: rest =>
    (if first then 0 else 1) + (stringSize key + 1 + compactSize value) + membersSize false rest

def elementsSize (first : Bool) : List Json → Nat
  | [] => 0
  | value :: rest => (if first then 0 else 1) + compactSize value + elementsSize false rest

end

mutual

/-- Nested no deeper than the limit, and every double is finite. -/
def IsCountable (depth : Nat) : Json → Prop
  | .object members => depth ≤ maxDepth ∧ membersCountable (depth + 1) members
  | .array elements => depth ≤ maxDepth ∧ elementsCountable (depth + 1) elements
  | .double value => depth ≤ maxDepth ∧ value.isFinite = true
  | _ => depth ≤ maxDepth

def membersCountable (depth : Nat) : List (Bytes × Json) → Prop
  | [] => True
  | (_, value) :: rest => IsCountable depth value ∧ membersCountable depth rest

def elementsCountable (depth : Nat) : List Json → Prop
  | [] => True
  | value :: rest => IsCountable depth value ∧ elementsCountable depth rest

end

variable {numbers : Numbers} {limit maxDepth size depth : Nat}

theorem addSize_bind (first second : Nat) :
    (addSize limit size first >>= fun size => addSize limit size second) =
      addSize limit size (first + second) := by
  by_cases exceeds : limit - size < first
  · rw [addSize, if_pos exceeds, addSize, if_pos (by omega)]
    rfl
  · rw [addSize, if_neg exceeds]
    change addSize limit (size + first) second = _
    by_cases later : limit - (size + first) < second
    · rw [addSize, if_pos later, addSize, if_pos (by omega)]
    · rw [addSize, if_neg later, addSize, if_neg (by omega), Nat.add_assoc]

theorem addSize_zero : addSize limit size 0 = .ok size := if_neg (by omega)

theorem addString_eq (text : Bytes) :
    addString limit size text = addSize limit size (stringSize text) := by
  have characters : ∀ (text : Bytes) (size : Nat),
      text.foldlM (fun size character => addSize limit size (characterSize character)) size =
        addSize limit size (text.map characterSize).sum := by
    intro text
    induction text with
    | nil => exact fun size => addSize_zero.symm
    | cons character rest ih =>
      intro size
      rw [foldlM_cons, map_cons, sum_cons, ← addSize_bind]
      simp only [ih]
  rw [addString, stringSize, ← addSize_bind]
  simp only [characters]

theorem addSeparator_eq (first : Bool) :
    addSeparator limit size first = addSize limit size (if first then 0 else 1) := by
  cases first with
  | false => rfl
  | true => exact addSize_zero.symm

theorem addElements_eq {elements : List Json}
    (each : ∀ element ∈ elements, ∀ size depth, IsCountable maxDepth depth element →
      addValue numbers limit maxDepth size depth element =
        addSize limit size (compactSize numbers element))
    (first : Bool) (countable : elementsCountable maxDepth (depth + 1) elements) :
    addElements numbers limit maxDepth size depth first elements =
      addSize limit size (elementsSize numbers first elements) := by
  induction elements generalizing size first with
  | nil => rw [addElements, elementsSize, addSize_zero]
  | cons element rest ih =>
    obtain ⟨here, later⟩ := countable
    have counted := fun size => each element mem_cons_self size (depth + 1) here
    have finished := fun size =>
      @ih size (fun other member => each other (mem_cons_of_mem _ member)) false later
    rw [addElements, elementsSize]
    simp only [addSeparator_eq, counted, finished, addSize_bind]
    rw [Nat.add_assoc]

theorem addMembers_eq {members : List (Bytes × Json)}
    (each : ∀ member ∈ members, ∀ size depth, IsCountable maxDepth depth member.2 →
      addValue numbers limit maxDepth size depth member.2 =
        addSize limit size (compactSize numbers member.2))
    (first : Bool) (countable : membersCountable maxDepth (depth + 1) members) :
    addMembers numbers limit maxDepth size depth first members =
      addSize limit size (membersSize numbers first members) := by
  induction members generalizing size first with
  | nil => rw [addMembers, membersSize, addSize_zero]
  | cons member rest ih =>
    obtain ⟨key, value⟩ := member
    obtain ⟨here, later⟩ := countable
    have counted := fun size => each (key, value) mem_cons_self size (depth + 1) here
    have finished := fun size =>
      @ih size (fun other within => each other (mem_cons_of_mem _ within)) false later
    rw [addMembers, membersSize]
    simp only [addSeparator_eq, addString_eq, counted, finished, addSize_bind]
    simp only [Nat.add_assoc]

theorem addValue_eq (countable : IsCountable maxDepth depth json) :
    addValue numbers limit maxDepth size depth json =
      addSize limit size (compactSize numbers json) := by
  induction json using Json.induct generalizing size depth with
  | null => rw [addValue, if_neg (Nat.not_lt.mpr countable), compactSize]
  | boolean value => rw [addValue, if_neg (Nat.not_lt.mpr countable), compactSize]
  | integer value => rw [addValue, if_neg (Nat.not_lt.mpr countable), compactSize]
  | double value =>
    obtain ⟨shallow, finite⟩ := countable
    rw [addValue, if_neg (Nat.not_lt.mpr shallow), if_neg (not_not_intro finite), compactSize]
  | string text =>
    rw [addValue, if_neg (Nat.not_lt.mpr countable), compactSize, addString_eq]
  | array elements ih =>
    obtain ⟨shallow, elementsDeep⟩ := countable
    have counted := fun size => @addElements_eq numbers limit maxDepth size depth elements
      (fun element member _ _ => ih element member) true elementsDeep
    rw [addValue, if_neg (Nat.not_lt.mpr shallow), compactSize]
    simp only [counted, addSize_bind]
  | object members ih =>
    obtain ⟨shallow, membersDeep⟩ := countable
    have counted := fun size => @addMembers_eq numbers limit maxDepth size depth members
      (fun member within _ _ => ih member within) true membersDeep
    rw [addValue, if_neg (Nat.not_lt.mpr shallow), compactSize]
    simp only [counted, addSize_bind]

theorem addValue_ok {json : Json} (countable : IsCountable maxDepth depth json)
    (fits : size + compactSize numbers json ≤ limit) :
    addValue numbers limit maxDepth size depth json = .ok (size + compactSize numbers json) := by
  rw [addValue_eq countable, addSize, if_neg (by omega)]

theorem length_escapeByte :
    ∀ character, (escapeByte character).length = characterSize character :=
  forall_byte (by decide +kernel)

theorem length_quoted (text : Bytes) : (quoted text).length = stringSize text := by
  have characters : (escapeString text).length = (text.map characterSize).sum := by
    rw [escapeString, length_flatMap]
    exact congrArg List.sum (map_congr_left fun character _ => length_escapeByte character)
  rw [quoted, stringSize, length_cons, length_append, characters, length_singleton]
  omega

theorem length_appendElements (each : ∀ element ∈ elements, ∀ level,
      (appendJsonValue numbers.toDoubleText true level element).length =
        compactSize numbers element) (level : Nat) (first : Bool) :
    (appendElements numbers.toDoubleText true level first elements).length =
      elementsSize numbers first elements := by
  induction elements generalizing first with
  | nil => rw [appendElements, elementsSize, length_nil]
  | cons element rest ih =>
    have later := ih (fun other member => each other (mem_cons_of_mem _ member)) false
    rw [appendElements, elementsSize]
    simp only [if_true, length_append, length_nil, later,
      each element mem_cons_self]
    cases first <;> simp

theorem length_appendMembers (each : ∀ member ∈ members, ∀ level,
      (appendJsonValue numbers.toDoubleText true level member.2).length =
        compactSize numbers member.2) (level : Nat) (first : Bool) :
    (appendMembers numbers.toDoubleText true level first members).length =
      membersSize numbers first members := by
  induction members generalizing first with
  | nil => rw [appendMembers, membersSize, length_nil]
  | cons member rest ih =>
    obtain ⟨key, value⟩ := member
    have later := ih (fun other member => each other (mem_cons_of_mem _ member)) false
    have written := each (key, value) mem_cons_self (level + 1)
    have comma : (if first then [] else [0x2c] : Bytes).length = if first then 0 else 1 := by
      cases first <;> rfl
    rw [appendMembers, membersSize]
    simp only [if_true, length_append, length_nil, length_singleton, length_quoted,
      comma, later, written]
    omega

theorem length_appendJsonValue (json : Json) (level : Nat) :
    (appendJsonValue numbers.toDoubleText true level json).length = compactSize numbers json := by
  induction json using Json.induct generalizing level with
  | null => rfl
  | boolean value => cases value <;> rfl
  | integer value => rfl
  | double value => rfl
  | string text => exact length_quoted text
  | array elements ih =>
    rw [appendJsonValue, compactSize]
    simp only [if_true, not_true_eq_false, false_and, if_false, length_append,
      length_singleton, length_nil, length_appendElements ih]
    omega
  | object members ih =>
    rw [appendJsonValue, compactSize]
    simp only [not_true_eq_false, false_and, if_false, length_append,
      length_singleton, length_nil, length_appendMembers ih]
    omega

theorem countable_of_elements (each : ∀ element ∈ elements, ∀ size depth total,
      addValue numbers limit maxDepth size depth element = .ok total →
        IsCountable maxDepth depth element)
    (counted : addElements numbers limit maxDepth size depth first elements = .ok total) :
    elementsCountable maxDepth (depth + 1) elements := by
  induction elements generalizing first size with
  | nil => exact trivial
  | cons element rest ih =>
    rw [addElements, bind_ok] at counted
    obtain ⟨separated, -, counted⟩ := counted
    rw [bind_ok] at counted
    obtain ⟨here, value, later⟩ := counted
    exact ⟨each element mem_cons_self _ _ _ value,
      ih (fun other member => each other (mem_cons_of_mem _ member)) later⟩

theorem countable_of_members (each : ∀ member ∈ members, ∀ size depth total,
      addValue numbers limit maxDepth size depth member.2 = .ok total →
        IsCountable maxDepth depth member.2)
    (counted : addMembers numbers limit maxDepth size depth first members = .ok total) :
    membersCountable maxDepth (depth + 1) members := by
  induction members generalizing first size with
  | nil => exact trivial
  | cons member rest ih =>
    rw [addMembers, bind_ok] at counted
    obtain ⟨separated, -, counted⟩ := counted
    rw [bind_ok] at counted
    obtain ⟨named, -, counted⟩ := counted
    rw [bind_ok] at counted
    obtain ⟨colon, -, counted⟩ := counted
    rw [bind_ok] at counted
    obtain ⟨here, value, later⟩ := counted
    exact ⟨each _ mem_cons_self _ _ _ value,
      ih (fun other within => each other (mem_cons_of_mem _ within)) later⟩

theorem countable_of_addValue
    (counted : addValue numbers limit maxDepth size depth json = .ok total) :
    IsCountable maxDepth depth json := by
  induction json using Json.induct generalizing size depth total with
  | null => exact Nat.not_lt.mp (check_ok.mp counted).1
  | boolean value => exact Nat.not_lt.mp (check_ok.mp counted).1
  | integer value => exact Nat.not_lt.mp (check_ok.mp counted).1
  | double value =>
    obtain ⟨shallow, counted⟩ := check_ok.mp counted
    exact ⟨Nat.not_lt.mp shallow, not_not.mp (check_ok.mp counted).1⟩
  | string text => exact Nat.not_lt.mp (check_ok.mp counted).1
  | array elements ih =>
    obtain ⟨shallow, counted⟩ := check_ok.mp counted
    obtain ⟨size, -, counted⟩ := bind_ok.mp counted
    exact ⟨Nat.not_lt.mp shallow,
      countable_of_elements (fun element member _ _ _ => ih element member) counted⟩
  | object members ih =>
    obtain ⟨shallow, counted⟩ := check_ok.mp counted
    obtain ⟨size, -, counted⟩ := bind_ok.mp counted
    exact ⟨Nat.not_lt.mp shallow,
      countable_of_members (fun member within _ _ _ => ih member within) counted⟩

/-- A size is counted exactly for what is not too deep and has finite doubles, it is the length of
the compact text, and what is refused then is longer than the limit. -/
theorem objectSize_exact (numbers : Numbers) (limit maxDepth : Nat) (object : JsonObject) :
    (∀ size, objectSize numbers limit maxDepth object = .ok size ↔
      IsCountable maxDepth 0 (.object object) ∧
        size = (toJsonString numbers.toDoubleText true 0 (.object object)).length ∧
          size ≤ limit) ∧
    (IsCountable maxDepth 0 (.object object) →
      (objectSize numbers limit maxDepth object = .error "JSON exceeds size limit" ↔
        limit < (toJsonString numbers.toDoubleText true 0 (.object object)).length)) := by
  rw [toJsonString, length_appendJsonValue, objectSize]
  constructor
  · intro size
    constructor
    · intro counted
      have countable := countable_of_addValue counted
      rw [addValue_eq countable] at counted
      obtain ⟨fits, same⟩ := check_ok.mp counted
      cases same
      exact ⟨countable, Nat.zero_add _, by omega⟩
    · rintro ⟨countable, rfl, fits⟩
      rw [addValue_ok countable (by omega), Nat.zero_add]
  · intro countable
    rw [addValue_eq countable, addSize]
    split
    · rename_i exceeds
      exact iff_of_true rfl exceeds
    · rename_i fits
      exact iff_of_false (fun refused => by cases refused) fits

/-- A NaN has a text, and no size. -/
theorem objectSize_refuses_nan :
    ¬ ∀ (numbers : Numbers) (limit : Nat) (object : JsonObject),
      (toJsonString numbers.toDoubleText true 0 (.object object)).length ≤ limit →
        objectSize numbers limit 64 object =
          .ok (toJsonString numbers.toDoubleText true 0 (.object object)).length := by
  intro exact_size
  have counted := exact_size bitsNumbers _ [([0x61], .double ⟨0x7ff8000000000000⟩)] (Nat.le_refl _)
  obtain ⟨-, ⟨-, finite⟩, -⟩ := countable_of_addValue counted
  exact absurd finite (by decide)

end SwStack.Types
