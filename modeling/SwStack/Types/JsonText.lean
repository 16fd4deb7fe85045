import SwStack.Types.JsonRoundTrip
import SwStack.Types.JsonValue

/-! The JSON round trip of both writers. Texts that an `int` can index always come back. -/
namespace SwStack.Types

open SwStack.Lib List

variable {numbers : DoubleText} {layout : Layout}

variable {text : Bytes}

theorem cutText_short {before run after : Bytes} (shape : text = before ++ (run ++ after))
    (short : text.length ≤ maxInt) :
    cutText text before.length (before ++ run).length = run := by
  have size : text.length = before.length + run.length + after.length := by
    rw [shape]
    simp only [length_append]
    omega
  have span : (before ++ run).length - before.length = run.length := by
    rw [length_append]
    omega
  rw [cutText, span, min_eq_left (by omega), min_eq_left (by omega), SwString.mid,
    toInt_of_le short]
  dsimp only
  split
  · rename_i outside
    have nothing : run.length = 0 := by omega
    exact (eq_nil_of_length_eq_zero nothing).symm
  · rw [if_neg (by omega), Int.toNat_natCast, Int.toNat_natCast, shape, drop_left,
      take_left]

theorem takeWhile_all {test : UInt8 → Bool} {run : Bytes} (each : ∀ byte ∈ run, test byte = true) :
    run.takeWhile test = run := by
  have taken := takeWhile_run each (stops_nil : Stops test [])
  rwa [append_nil] at taken

theorem strtoll_number (value : Int64) :
    strtoll (SwString.number value) =
      { value, stop := (SwString.number value).length, outOfRange := false } := by
  have low := value.minValue_le_toInt
  have high := value.toInt_le
  have digits := decimal_whole value.toInt.natAbs
  obtain ⟨first, rest, front⟩ := exists_cons_of_ne_nil digits.2.1
  have plain := digits.1 first (by rw [front]; exact mem_cons_self)
  have range := isDigit_iff.mp plain
  have dark : isSpace first = false := by
    rw [Bool.eq_false_iff]
    intro space
    rw [isSpace_iff] at space
    omega
  have unsigned : first ≠ 0x2d ∧ first ≠ 0x2b := by
    constructor
    all_goals
      rintro rfl
      exact absurd plain (by decide)
  have read := ofDecimal_decimal value.toInt.natAbs
  rw [SwString.number, integerText]
  split
  · rename_i negative
    have magnitude : -(value.toInt.natAbs : Int) = value.toInt := by omega
    rw [strtoll]
    simp only [takeWhile_cons, show isSpace 0x2d = false from rfl, Bool.false_eq_true,
      if_false, length_nil, drop_zero, head?_cons, true_or, if_true,
      drop_succ_cons, takeWhile_all digits.1, read, magnitude, if_neg digits.2.1,
      if_neg (not_lt.mpr low), if_neg (not_lt.mpr high), Int64.ofInt_toInt, length_cons]
    congr 1
    omega
  · rename_i positive
    have magnitude : (value.toInt.natAbs : Int) = value.toInt := by omega
    have head : (decimal value.toInt.natAbs).head? = some first := by rw [front]; rfl
    have spaces : (decimal value.toInt.natAbs).takeWhile isSpace = [] := by
      rw [front, takeWhile_cons, dark]
      rfl
    rw [strtoll]
    simp only [spaces, length_nil, drop_zero, head, Option.some.injEq, unsigned,
      or_self, if_false, takeWhile_all digits.1, read, magnitude, if_neg digits.2.1,
      if_neg (not_lt.mpr low), if_neg (not_lt.mpr high), Int64.ofInt_toInt, Nat.zero_add,
      Nat.add_zero]

/-- The text of a finite value stands at a position of the text, and ends there. -/
def Stands (numbers : DoubleText) (layout : Layout) (text : Bytes) (level position : Nat)
    (value : Json) : Prop :=
  value.isFinite = true ∧ ∃ before after,
    text = before ++ (render numbers layout level value ++ after) ∧ before.length = position ∧
      Ends after

theorem memberTokens_stand {members : List (Bytes × Json)} {text before after : Bytes}
    {level : Nat} {first : Bool} {token : Nat × Json}
    (each : ∀ member ∈ members, member.2.isFinite = true ∧ ∀ level position,
      Stands numbers layout text level position member.2 →
      token ∈ tokens numbers layout level position member.2 →
      Stands numbers layout text 0 token.1 token.2)
    (shape : text = before ++ (renderMembers numbers layout level first members ++ after))
    (found : token ∈ memberTokens numbers layout level before.length first members) :
    Stands numbers layout text 0 token.1 token.2 := by
  induction members generalizing before first with
  | nil => simp [memberTokens] at found
  | cons member members ih =>
    obtain ⟨key, value⟩ := member
    rw [memberTokens] at found
    rw [renderMembers] at shape
    rcases mem_append.mp found with here | later
    · obtain ⟨finite, stand⟩ := each (key, value) mem_cons_self
      refine stand (level + 1) _ ⟨finite, before ++ layout.memberHead level first key,
        renderMembers numbers layout level false members ++ after, ?_, length_append,
        ends_renderMembers level members after⟩ here
      rw [shape]
      simp
    · refine @ih
        (before ++ layout.memberHead level first key ++ render numbers layout (level + 1) value)
        false (fun other inside => each other (mem_cons_of_mem _ inside))
        (by rw [shape]; simp) ?_
      rw [length_append, length_append]
      exact later

theorem elementTokens_stand {elements : List Json} {text before after : Bytes}
    {level : Nat} {first : Bool} {token : Nat × Json}
    (each : ∀ element ∈ elements, element.isFinite = true ∧ ∀ level position,
      Stands numbers layout text level position element →
      token ∈ tokens numbers layout level position element →
      Stands numbers layout text 0 token.1 token.2)
    (shape : text = before ++ (renderElements numbers layout level first elements ++ after))
    (found : token ∈ elementTokens numbers layout level before.length first elements) :
    Stands numbers layout text 0 token.1 token.2 := by
  induction elements generalizing before first with
  | nil => simp [elementTokens] at found
  | cons element elements ih =>
    rw [elementTokens] at found
    rw [renderElements] at shape
    rcases mem_append.mp found with here | later
    · obtain ⟨finite, stand⟩ := each element mem_cons_self
      refine stand (level + 1) _ ⟨finite, before ++ layout.elementHead level first,
        renderElements numbers layout level false elements ++ after, ?_, length_append,
        ends_renderElements level elements after⟩ here
      rw [shape]
      simp
    · refine @ih
        (before ++ layout.elementHead level first ++ render numbers layout (level + 1) element)
        false (fun other inside => each other (mem_cons_of_mem _ inside))
        (by rw [shape]; simp) ?_
      rw [length_append, length_append]
      exact later

theorem tokens_stand (stands : Stands numbers layout text level position value)
    (found : token ∈ tokens numbers layout level position value) :
    Stands numbers layout text 0 token.1 token.2 := by
  induction value using Json.induct generalizing level position with
  | array elements ih =>
    obtain ⟨finite, before, after, shape, rfl, ends⟩ := stands
    rw [Json.isFinite] at finite
    cases elements with
    | nil => simp [tokens] at found
    | cons element elements =>
      rw [tokens] at found
      refine @elementTokens_stand numbers layout (element :: elements) text (before ++ [0x5b])
        after level true token (fun other member => ⟨Json.finite_element finite other member,
          fun level position stand inside => ih other member stand inside⟩) ?_
        (by rw [length_append]; exact found)
      rw [shape, render]
      simp
  | object members ih =>
    obtain ⟨finite, before, after, shape, rfl, ends⟩ := stands
    rw [Json.isFinite] at finite
    cases members with
    | nil => simp [tokens] at found
    | cons member members =>
      rw [tokens] at found
      refine @memberTokens_stand numbers layout (member :: members) text (before ++ [0x7b])
        after level true token (fun other inside => ⟨Json.finite_member finite other inside,
          fun level position stand within => ih other inside stand within⟩) ?_
        (by rw [length_append]; exact found)
      rw [shape, render]
      simp
  | string value => simp [tokens] at found
  | _ =>
    rw [tokens, mem_singleton] at found
    subst found
    exact stands

/-- What is cut out of a text that an `int` can index is the token itself. -/
theorem intact_of_short (faithful : numbers.Faithful) {token : Nat × Json}
    (stands : Stands numbers layout text 0 token.1 token.2) (short : text.length ≤ maxInt) :
    Intact numbers text token := by
  obtain ⟨position, value⟩ := token
  obtain ⟨finite, before, after, shape, rfl, ends⟩ := stands
  dsimp only at shape finite
  have cut := cutText_short shape short
  unfold Intact
  cases value with
  | null =>
    rw [render] at shape cut
    have literal := @parseLiteral_spec nullText after before (by simp [nullText, isAlpha]) ends
    rw [← shape, cut] at literal
    rw [rereadScalar, parseNull, literal]
    rfl
  | boolean value =>
    rw [render] at shape cut
    have literal := @parseLiteral_spec (booleanText value) after before
      (by cases value <;> simp [booleanText, isAlpha]) ends
    rw [← shape, cut] at literal
    rw [rereadScalar, parseBoolean, literal]
    cases value <;> rfl
  | integer value =>
    rw [render, length_append] at cut
    rw [rereadScalar, readNumber, cut, strtoll_number]
    simp
  | double value =>
    rw [Json.isFinite] at finite
    rw [render, length_append] at cut
    rw [rereadScalar, readNumber, cut, faithful.survives value finite]
    simp [finite]
  | string value => rfl
  | array elements => rfl
  | object members => rfl

theorem fromJson_short (faithful : numbers.Faithful) (finite : value.isFinite = true)
    (short : (render numbers layout level value).length ≤ maxInt) :
    ∀ token ∈ tokens numbers layout level 0 value,
      Intact numbers (render numbers layout level value) token := by
  intro token found
  have whole : Stands numbers layout (render numbers layout level value) level 0 value :=
    ⟨finite, [], [], by simp, rfl, ends_nil⟩
  exact intact_of_short faithful (tokens_stand whole found) short

/-- A row is read back from bytes that an `int` can index. -/
theorem parseJsonObject_jsonBytes {numbers : Numbers} {row : JsonObject}
    (faithful : numbers.toDoubleText.Faithful) (finite : Json.isFinite (.object row) = true)
    (ordered : Json.isOrdered (.object row)) (short : (jsonBytes numbers row).length ≤ maxInt) :
    parseJsonObject numbers (jsonBytes numbers row) = some row := by
  rw [jsonBytes, toJson, generateJson_eq] at short ⊢
  rw [parseJsonObject, (fromJson_render faithful finite ordered 0).mpr
    (fromJson_short faithful finite short)]

/-- Both writers are inverted, and integers stay integers, exactly when every number and literal
is intact in the text, as in every text that an `int` can index. -/
theorem json_roundTrip_iff {value : Json} (faithful : numbers.Faithful)
    (finite : value.isFinite = true) (ordered : value.isOrdered) (pretty compact : Bool)
    (indentLevel : Nat) :
    (fromJson numbers (toJson numbers pretty value) = .ok value ↔
      ∀ token ∈ tokens numbers (documentLayout pretty) 0 0 value,
        Intact numbers (toJson numbers pretty value) token) ∧
    (fromJson numbers (toJsonString numbers compact indentLevel value) = .ok value ↔
      ∀ token ∈ tokens numbers (inlineLayout compact) indentLevel 0 value,
        Intact numbers (toJsonString numbers compact indentLevel value) token) ∧
    ((toJson numbers pretty value).length ≤ maxInt →
      fromJson numbers (toJson numbers pretty value) = .ok value) ∧
    ((toJsonString numbers compact indentLevel value).length ≤ maxInt →
      fromJson numbers (toJsonString numbers compact indentLevel value) = .ok value) := by
  rw [toJson, toJsonString, generateJson_eq, appendJsonValue_eq]
  have document := @fromJson_render numbers (documentLayout pretty) faithful value finite ordered 0
  have inline := @fromJson_render numbers (inlineLayout compact) faithful value finite ordered
    indentLevel
  exact ⟨document, inline, fun short => document.mpr (fromJson_short faithful finite short),
    fun short => inline.mpr (fromJson_short faithful finite short)⟩

/-- Doubles written by their bits, which is faithful too. -/
def bitsText : DoubleText where
  format value := decimal value.bits.toNat
  strtod text := (⟨UInt64.ofNat (ofDecimal (text.takeWhile isDigit))⟩, text.length)

/-- Numbers kept by their bits. -/
def bitsNumbers : Numbers where
  toDoubleText := bitsText
  number value := bitsText.format value
  ofInteger value := ⟨value.toUInt64⟩
  toInteger value := value.bits.toInt64
  isWhole _ := true
  toLongLong text := some (strtoll text).value
  toDouble text := some (bitsText.strtod text).1

theorem bitsText_numeral (value : Double) :
    bitsText.format value = (Numeral.ofInt value.bits.toNat).text := by
  rw [Numeral.text_ofInt, integerText, if_neg (by omega)]
  rfl

theorem bitsText_faithful : bitsText.Faithful where
  numeral value _ := ⟨_, Numeral.valid_ofInt _, bitsText_numeral value⟩
  survives value finite := by
    have digits := decimal_whole value.bits.toNat
    have text : integerText value.bits.toNat = decimal value.bits.toNat := by
      rw [integerText, if_neg (by omega), Int.natAbs_natCast]
    have written : bitsText.literal value = decimal value.bits.toNat ++ [0x2e, 0x30] := by
      rw [DoubleText.literal, bitsText_numeral, any_mark (Numeral.valid_ofInt _),
        Numeral.text_ofInt, text]
      simp [finite, Numeral.isFloating, Numeral.ofInt]
    have read : (decimal value.bits.toNat ++ [0x2e, 0x30]).takeWhile isDigit =
        decimal value.bits.toNat := takeWhile_run digits.1 (stops_cons rfl)
    rw [written]
    dsimp only [bitsText]
    rw [read, ofDecimal_decimal, UInt64.ofNat_toNat]

theorem json_roundTrip_nested :
    fromJson bitsText (toJson bitsText true (.object [([0x61], .array [.integer (-5), .null]),
      ([0x62], .string [0x00, 0x22, 0x5c])])) = .ok (.object [([0x61],
        .array [.integer (-5), .null]), ([0x62], .string [0x00, 0x22, 0x5c])]) := by
  refine (json_roundTrip_iff bitsText_faithful rfl ?_ true true 0).1.mpr ?_
  · simp only [Json.isOrdered, Json.elementsOrdered, Json.membersOrdered, and_true]
    decide
  · rw [toJson, generateJson_eq]
    exact fromJson_short bitsText_faithful rfl (by decide)

theorem cutText_long (long : maxInt < text.length)
    (wraps : text.length < 2 ^ 32) : cutText text start stop = [] := by
  have bound : maxInt = 2147483647 := rfl
  have size : toInt text.length < 0 := by
    unfold toInt
    rw [Int.bmod_def]
    split <;> omega
  rw [cutText, SwString.mid]
  dsimp only
  rw [if_pos (Or.inr (by omega))]

theorem intact_long (long : maxInt < text.length)
    (wraps : text.length < 2 ^ 32) (intact : Intact numbers text (position, .integer value)) :
    value = 0 := by
  have read : strtoll [] = { value := 0, stop := 0, outOfRange := false } := by decide
  rw [Intact, rereadScalar, readNumber, cutText_long long wraps, read] at intact
  simpa using intact.symm

theorem quoted_replicate (size : Nat) :
    quoted (List.replicate size 0x61) = 0x22 :: (List.replicate size 0x61 ++ [0x22]) := by
  rw [quoted, escapeString_ordinary]
  intro byte member
  rw [eq_of_mem_replicate member]
  rfl

theorem number_lost {size : Nat} (long : maxInt < size) (wraps : size + 6 < 2 ^ 32) :
    fromJson bitsText (toJson bitsText false (.array [.string (List.replicate size 0x61),
      .integer 1])) ≠ .ok (.array [.string (List.replicate size 0x61), .integer 1]) := by
  intro back
  rw [toJson, generateJson_eq, fromJson_render bitsText_faithful rfl
    (by simp [Json.isOrdered, Json.elementsOrdered])] at back
  have length : (render bitsText (documentLayout false) 0 (.array
      [.string (List.replicate size 0x61), .integer 1])).length = size + 6 := by
    rw [render, renderElements, renderElements, renderElements, render, render, quoted_replicate]
    simp [Layout.elementHead, Layout.comma, documentLayout, lines, SwString.number, integerText]
    decide
  have found : ∃ position, (position, Json.integer 1) ∈ tokens bitsText (documentLayout false) 0 0
      (.array [.string (List.replicate size 0x61), .integer 1]) := by
    simp [tokens, elementTokens]
  obtain ⟨position, found⟩ := found
  exact absurd (intact_long (by omega) (by omega) (back _ found)) (by decide)

/-- In a text of two gibibytes a number is cut out empty, and read as zero. -/
theorem json_roundTrip_fails_of_size :
    ¬ ∀ (numbers : DoubleText) (value : Json), numbers.Faithful → value.isFinite = true →
      value.isOrdered → fromJson numbers (toJson numbers false value) = .ok value := by
  intro roundTrip
  exact @number_lost (2 ^ 31) (by decide) (by decide) (roundTrip bitsText _
    bitsText_faithful rfl (by simp [Json.isOrdered, Json.elementsOrdered]))

end SwStack.Types
