import SwStack.EmbeddedDb.Types
import SwStack.Lib.Escape

/-! Keys of index rows as they are written and read. -/
open List hiding contains

namespace SwStack.EmbeddedDb.IndexCodec

open SwStack.Lib SwStack.Types

/-- The field appended to `out`, and the bytes after it. -/
def decodeFieldKey (out : Bytes) : Bytes → Option (Bytes × Bytes)
  | [] => none
  | ch :: cur =>
    if ch ≠ 0 then decodeFieldKey (out ++ [ch]) cur
    else
      match cur with
      | [] => none
      | tag :: cur =>
        if tag = 0 then some (out, cur)
        else if tag ≠ 255 then none
        else decodeFieldKey (out ++ [0]) cur

def decodeIndexCompositeKey (compositeKey : Bytes) : Option (Bytes × Bytes) := do
  let (secondaryKey, cur) ← decodeFieldKey [] compositeKey
  let (primaryKey, cur) ← decodeFieldKey [] cur
  if cur = [] then some (secondaryKey, primaryKey) else none

def fieldKey : Escape UInt8 where
  least := 0
  mark := 255
  le_all byte := UInt8.le_iff_toNat_le.mpr (Nat.zero_le _)
  least_lt_mark := by decide

/-- Keys without a zero byte, and those whose first is found. -/
def ZeroFound (key : Bytes) : Prop :=
  ∀ position, key.findIdx? (· == 0) = some position → position % 2 ^ 32 ≠ 2 ^ 32 - 1

theorem zeroFound_of_short {key : Bytes} (short : key.length < 2 ^ 32) : ZeroFound key := by
  intro position found
  have within := (findIdx?_eq_some_iff_getElem.mp found).1
  omega

theorem letter_fieldKey (ch : UInt8) :
    fieldKey.letter ch = if ch = 0 then [0, 255] else [ch] := by
  by_cases zero : ch = 0
  · exact (if_pos zero).trans (if_pos zero).symm
  · exact (if_neg zero).trans (if_neg zero).symm

theorem foldl_escape (key out : Bytes) :
    key.foldl (fun out ch => if ch = 0 then (out ++ [0]) ++ [255] else out ++ [ch]) out =
      out ++ fieldKey.escape key := by
  induction key generalizing out with
  | nil => exact (append_nil out).symm
  | cons ch key ih =>
    rw [foldl_cons, ih, Escape.escape_cons, ← append_assoc, letter_fieldKey]
    congr 1
    by_cases zero : ch = 0
    · rw [if_pos zero, if_pos zero, append_assoc]
      rfl
    · rw [if_neg zero, if_neg zero]

theorem appendEncodedFieldKey_eq (out key : Bytes) : appendEncodedFieldKey out key =
    out ++ (if contains key 0 then fieldKey.terminate key else key ++ [0, 0]) := by
  unfold appendEncodedFieldKey
  by_cases found : contains key 0 = true
  · rw [found, if_neg (by decide), if_pos rfl, foldl_escape, append_assoc]
    rfl
  · have raw : (if key.isEmpty then out else out ++ key) = out ++ key := by
      cases key with
      | nil => exact (append_nil out).symm
      | cons ch key => rfl
    rw [Bool.eq_false_iff.mpr found, if_pos (by rfl), raw, append_assoc, if_neg (by decide)]

/-- Only a key whose zero byte is missed is written without its escapes. -/
theorem written_eq_iff (key : Bytes) :
    (if contains key 0 then fieldKey.terminate key else key ++ [0, 0]) = fieldKey.terminate key ↔
      ZeroFound key := by
  cases first : key.findIdx? (· == 0) with
  | none =>
    have absent : (0 : UInt8) ∉ key := by
      intro member
      have missed := findIdx?_eq_none_iff.mp first 0 member
      cases missed
    have plain : fieldKey.terminate key = key ++ [0, 0] :=
      congrArg (· ++ [0, 0]) (Escape.escape_of_notMem absent)
    rw [plain, ite_self]
    exact iff_of_true rfl fun position here => by cases first.symm.trans here
  | some position =>
    have present : (0 : UInt8) ∈ key := by
      obtain ⟨within, zero, -⟩ := findIdx?_eq_some_iff_getElem.mp first
      exact beq_iff_eq.mp zero ▸ getElem_mem within
    have longer : fieldKey.terminate key ≠ key ++ [0, 0] := by
      intro same
      exact Escape.escape_eq_self_iff.mp (append_cancel_right same) present
    have found : contains key 0 = true ↔ ZeroFound key := by
      rw [← Bool.not_eq_false, contains_eq_false_iff]
      constructor
      · intro found other here cast
        cases first.symm.trans here
        exact found fun _ same => by
          cases first.symm.trans same
          exact cast
      · intro clear cast
        exact clear position first (cast position first)
    rw [← found]
    by_cases contained : contains key 0 = true
    · rw [if_pos contained]
      exact iff_of_true rfl contained
    · rw [if_neg contained]
      exact iff_of_false longer.symm contained

theorem decodeFieldKey_eq (out input : Bytes) : decodeFieldKey out input =
    (fieldKey.read input).map fun result => (out ++ result.1, result.2) := by
  have step (out : Bytes) (ch : UInt8) (input : Bytes) :
      ((fieldKey.read input).map fun result => (ch :: result.1, result.2)).map
          (fun result => (out ++ result.1, result.2)) =
        (fieldKey.read input).map fun result => ((out ++ [ch]) ++ result.1, result.2) := by
    rw [Option.map_map]
    refine congrArg (Option.map · _) (funext fun result => ?_)
    rw [Function.comp_apply, append_assoc]
    rfl
  induction out, input using decodeFieldKey.induct with
  | case1 out => rfl
  | case2 out ch cur plain ih =>
    rw [Escape.read_plain plain, step, ← ih, decodeFieldKey.eq_def]
    exact if_pos plain
  | case3 out ch escaped =>
    rw [not_not.mp escaped]
    have bare : fieldKey.read [0] = none := Escape.read_bare
    exact (congrArg _ bare).symm
  | case4 out ch escaped cur =>
    rw [not_not.mp escaped]
    have ended : fieldKey.read (0 :: 0 :: cur) = some ([], cur) := Escape.read_end cur
    refine Eq.trans ?_ (congrArg _ ended).symm
    exact congrArg (fun word => some (word, cur)) (append_nil out).symm
  | case5 out ch escaped tag cur continues unmarked =>
    rw [not_not.mp escaped]
    have stray : fieldKey.read (0 :: tag :: cur) = none := Escape.read_stray continues unmarked cur
    refine Eq.trans ?_ (congrArg _ stray).symm
    rw [decodeFieldKey.eq_def]
    exact (if_neg continues).trans (if_pos unmarked)
  | case6 out ch escaped tag cur continues marked ih =>
    rw [not_not.mp escaped, not_not.mp marked]
    have escaped : fieldKey.read (0 :: 255 :: cur) =
        (fieldKey.read cur).map fun result => (0 :: result.1, result.2) := Escape.read_marked cur
    refine Eq.trans ?_ (congrArg _ escaped).symm
    exact ih.trans (step out 0 cur).symm

theorem length_written_le (key : Bytes) :
    (if contains key 0 then fieldKey.terminate key else key ++ [0, 0]).length ≤
      (fieldKey.terminate key).length := by
  split
  · exact le_rfl
  · rw [Escape.terminate, length_append, length_append, Escape.length_escape]
    exact Nat.add_le_add_right (Nat.le_add_right _ _) _

theorem decodeIndexCompositeKey_eq_some_iff :
    decodeIndexCompositeKey compositeKey = some (secondaryKey, primaryKey) ↔
      compositeKey = fieldKey.terminate secondaryKey ++ fieldKey.terminate primaryKey := by
  have field (input : Bytes) : decodeFieldKey [] input = fieldKey.read input := by
    rw [decodeFieldKey_eq]
    exact congrFun Option.map_id _
  rw [decodeIndexCompositeKey, field]
  constructor
  · intro decoded
    obtain ⟨⟨secondary, cur⟩, first, decoded⟩ := Option.bind_eq_some_iff.mp decoded
    obtain ⟨⟨primary, rest⟩, second, decoded⟩ := Option.bind_eq_some_iff.mp decoded
    rw [field] at second
    rw [Option.ite_none_right_eq_some] at decoded
    obtain ⟨ended, same⟩ := decoded
    cases same
    rw [Escape.terminate_of_read first, Escape.terminate_of_read second, ended, append_nil]
  · rintro rfl
    have second : fieldKey.read (fieldKey.terminate primaryKey ++ []) = some (primaryKey, []) :=
      Escape.read_terminate primaryKey []
    rw [append_nil] at second
    rw [Escape.read_terminate]
    change (decodeFieldKey [] (fieldKey.terminate primaryKey)).bind _ = _
    rw [field, second]
    rfl

theorem encodeIndexCompositeKey_eq_iff (secondaryKey primaryKey : Bytes) :
    encodeIndexCompositeKey secondaryKey primaryKey =
      fieldKey.terminate secondaryKey ++ fieldKey.terminate primaryKey ↔
    ZeroFound secondaryKey ∧ ZeroFound primaryKey := by
  rw [encodeIndexCompositeKey, appendEncodedFieldKey_eq, appendEncodedFieldKey_eq, nil_append,
    ← written_eq_iff, ← written_eq_iff]
  have secondary := length_written_le secondaryKey
  have primary := length_written_le primaryKey
  constructor
  · intro same
    have lengths := congrArg List.length same
    rw [length_append, length_append] at lengths
    exact append_inj same (by omega)
  · rintro ⟨first, second⟩
    rw [first, second]

/-- The codec undoes itself on keys whose zero bytes are found, and on no others; between such keys
it keeps the order. -/
theorem compositeKey_codec (secondaryKey primaryKey : Bytes) :
    (decodeIndexCompositeKey (encodeIndexCompositeKey secondaryKey primaryKey) =
        some (secondaryKey, primaryKey) ↔ ZeroFound secondaryKey ∧ ZeroFound primaryKey) ∧
    (∀ compositeKey : Bytes,
      decodeIndexCompositeKey compositeKey = some (secondaryKey, primaryKey) →
        (encodeIndexCompositeKey secondaryKey primaryKey = compositeKey ↔
          ZeroFound secondaryKey ∧ ZeroFound primaryKey)) ∧
    ∀ otherSecondary otherPrimary : Bytes,
      ZeroFound secondaryKey ∧ ZeroFound primaryKey →
        ZeroFound otherSecondary ∧ ZeroFound otherPrimary →
          (encodeIndexCompositeKey secondaryKey primaryKey =
              encodeIndexCompositeKey otherSecondary otherPrimary ↔
            (secondaryKey, primaryKey) = (otherSecondary, otherPrimary)) ∧
          (encodeIndexCompositeKey secondaryKey primaryKey <
              encodeIndexCompositeKey otherSecondary otherPrimary ↔
            secondaryKey < otherSecondary ∨
              secondaryKey = otherSecondary ∧ primaryKey < otherPrimary) := by
  have decoded (secondaryKey primaryKey : Bytes) :
      decodeIndexCompositeKey (fieldKey.terminate secondaryKey ++ fieldKey.terminate primaryKey) =
        some (secondaryKey, primaryKey) := decodeIndexCompositeKey_eq_some_iff.mpr rfl
  refine ⟨?_, fun compositeKey read => ?_, fun otherSecondary otherPrimary found otherFound => ?_⟩
  · rw [decodeIndexCompositeKey_eq_some_iff, encodeIndexCompositeKey_eq_iff]
  · rw [decodeIndexCompositeKey_eq_some_iff.mp read, encodeIndexCompositeKey_eq_iff]
  · rw [(encodeIndexCompositeKey_eq_iff _ _).mpr found,
      (encodeIndexCompositeKey_eq_iff _ _).mpr otherFound]
    constructor
    · constructor
      · intro same
        exact Option.some.inj ((decoded _ _).symm.trans ((congrArg _ same).trans (decoded _ _)))
      · intro same
        cases same
        rfl
    · rw [Escape.terminate_append_lt_iff, Escape.terminate_lt_iff]

/-- A zero byte at the position that is cast to the answer for none is written as it is. -/
theorem encodeIndexCompositeKey_collide {count : Nat} (cast : count % 2 ^ 32 = 2 ^ 32 - 1) :
    encodeIndexCompositeKey (List.replicate count 1 ++ [0]) [255] =
      encodeIndexCompositeKey (List.replicate count 1) [0] := by
  have ones : (List.replicate count (1 : UInt8)).findIdx? (· == 0) = none :=
    findIdx?_eq_none_iff.mpr fun byte member => by
      rw [eq_of_mem_replicate member]
      rfl
  have first : contains (List.replicate count 1 ++ [0]) 0 = false := by
    rw [contains_eq_false_iff, findIdx?_append, ones, length_replicate]
    intro position here
    have last : 0 + count = position := Option.some.inj here
    rw [← last, Nat.zero_add]
    exact cast
  have second : contains (List.replicate count 1) 0 = false := by
    rw [contains_eq_false_iff, ones]
    exact fun position here => by cases here
  have third : contains [255] 0 = false := by decide
  have fourth : contains [0] 0 = true := by decide
  have escaped : fieldKey.terminate [0] = [0, 255, 0, 0] := by
    rw [Escape.terminate, Escape.escape, flatMap_singleton, letter_fieldKey]
    rfl
  simp only [encodeIndexCompositeKey, appendEncodedFieldKey_eq, first, second, third, fourth,
    escaped, Bool.false_eq_true, if_true, if_false, nil_append, append_assoc,
    cons_append]

/-- A key whose first zero byte stands at the position that is cast to the answer for none. -/
theorem compositeKey_collides : ¬∀ secondaryKey primaryKey otherSecondary otherPrimary : Bytes,
    encodeIndexCompositeKey secondaryKey primaryKey =
      encodeIndexCompositeKey otherSecondary otherPrimary →
        (secondaryKey, primaryKey) = (otherSecondary, otherPrimary) := by
  intro injective
  have same := injective _ _ _ _
    (encodeIndexCompositeKey_collide (Nat.mod_eq_of_lt (by decide : 2 ^ 32 - 1 < 2 ^ 32)))
  have different : ([255] : Bytes) = [0] := congrArg Prod.snd same
  cases different

end SwStack.EmbeddedDb.IndexCodec
