import SwStack.Types.JsonScan

/-! What the parser makes of written values. Strings and structure always come back; numbers
and literals are cut out of the text again, by positions cast to `int`. -/
namespace SwStack.Types

open SwStack.Lib List

variable (numbers : DoubleText) (layout : Layout)

/-- What a number or literal that stands at a position is read as. -/
def rereadScalar (text : Bytes) (position : Nat) : Json → Except JsonFailure Json
  | .null => (parseNull text position).map Prod.fst
  | .boolean _ => (parseBoolean text position).map Prod.fst
  | .integer value =>
    readNumber numbers text position (position + (SwString.number value).length) false
  | .double value =>
    readNumber numbers text position (position + (numbers.literal value).length) true
  | value => .ok value

mutual

/-- What a value that is written at a position is read as. -/
def reread (text : Bytes) (level position : Nat) : Json → Except JsonFailure Json
  | .object [] => .ok (.object [])
  | .object (member :: members) =>
    (rereadMembers text level (position + 1) true (member :: members)).map .object
  | .array [] => .ok (.array [])
  | .array (element :: elements) =>
    (rereadElements text level (position + 1) true (element :: elements)).map .array
  | .null => rereadScalar numbers text position .null
  | .boolean value => rereadScalar numbers text position (.boolean value)
  | .integer value => rereadScalar numbers text position (.integer value)
  | .double value => rereadScalar numbers text position (.double value)
  | .string value => .ok (.string value)

def rereadMembers (text : Bytes) (level position : Nat) (first : Bool) :
    List (Bytes × Json) → Except JsonFailure (List (Bytes × Json))
  | [] => .ok []
  | (key, value) :: members => do
    let start := position + (layout.memberHead level first key).length
    let read ← reread text (level + 1) start value
    let others ← rereadMembers text level
      (start + (render numbers layout (level + 1) value).length) false members
    return (key, read) :: others

def rereadElements (text : Bytes) (level position : Nat) (first : Bool) :
    List Json → Except JsonFailure (List Json)
  | [] => .ok []
  | element :: elements => do
    let start := position + (layout.elementHead level first).length
    let read ← reread text (level + 1) start element
    let others ← rereadElements text level
      (start + (render numbers layout (level + 1) element).length) false elements
    return read :: others

end

/-- A byte that begins a value: no white space, closing bracket or byte order mark. -/
def Begins (byte : UInt8) : Prop :=
  isSpace byte = false ∧ byte ≠ 0x5d ∧ byte ≠ 0xef

theorem numeral_head {numeral : Numeral} (valid : numeral.Valid) :
    ∃ first rest, numeral.text = first :: rest ∧ (isDigit first = true ∨ first = 0x2d) := by
  obtain ⟨first, rest, front⟩ : ∃ first rest, numeral.whole = first :: rest :=
    exists_cons_of_ne_nil valid.whole.2.1
  have plain := valid.whole.1 first (by rw [front]; exact mem_cons_self)
  rw [Numeral.text, Numeral.sign, front]
  cases numeral.negative with
  | true => exact ⟨_, _, rfl, .inr rfl⟩
  | false => exact ⟨_, _, rfl, .inl plain⟩

/-- The marks of a floating numeral stand only in its fraction and its exponent. -/
theorem any_mark {numeral : Numeral} (valid : numeral.Valid) :
    numeral.text.any (fun byte => byte = 0x2e || byte = 0x65 || byte = 0x45) =
      numeral.isFloating := by
  have sign : numeral.sign.any (fun byte => byte = 0x2e || byte = 0x65 || byte = 0x45) = false := by
    unfold Numeral.sign
    cases numeral.negative <;> rfl
  have whole : numeral.whole.any (fun byte => byte = 0x2e || byte = 0x65 || byte = 0x45) =
      false := by
    rw [any_eq_false]
    intro byte member mark
    have plain := valid.whole.1 byte member
    simp only [Bool.or_eq_true, decide_eq_true_eq] at mark
    rcases mark with (rfl | rfl) | rfl
    all_goals exact absurd plain (by decide)
  unfold Numeral.isFloating
  rw [Numeral.text, any_append, any_append, any_append, sign, whole,
    Numeral.fractionText, Numeral.exponentText]
  cases numeral.fraction with
  | some digits => simp
  | none =>
    cases numeral.exponent with
    | some exponent => simp
    | none => rfl

theorem literal_numeral {value : Double} (faithful : numbers.Faithful)
    (finite : value.isFinite = true) :
    ∃ numeral : Numeral, numeral.Valid ∧ numbers.literal value = numeral.text ∧
      numeral.isFloating = true := by
  obtain ⟨numeral, valid, written⟩ := faithful.numeral value finite
  rw [DoubleText.literal, written, any_mark valid]
  cases floating : numeral.isFloating with
  | true => exact ⟨numeral, valid, by simp [finite], floating⟩
  | false =>
    obtain ⟨plain, bare⟩ : numeral.fraction = none ∧ numeral.exponent = none := by
      simpa [Numeral.isFloating] using floating
    refine ⟨{ numeral with fraction := some [0x30] }, ⟨valid.whole, ?_, valid.exponent⟩, ?_, rfl⟩
    · intro digits same
      cases same
      exact ⟨by simp [isDigit], by simp⟩
    · simp [finite, Numeral.text, Numeral.sign, Numeral.fractionText, Numeral.exponentText, plain,
        bare]

theorem isSpace_iff : isSpace byte = true ↔ byte.toNat = 32 ∨ 9 ≤ byte.toNat ∧ byte.toNat ≤ 13 := by
  rw [isSpace, Bool.or_eq_true, Bool.and_eq_true, decide_eq_true_iff, decide_eq_true_iff,
    decide_eq_true_iff, UInt8.le_iff_toNat_le, UInt8.le_iff_toNat_le, ← UInt8.toNat_inj]
  rfl

theorem begins_digit (digit : isDigit byte = true) : Begins byte := by
  have range := isDigit_iff.mp digit
  refine ⟨?_, ?_, ?_⟩
  · rw [Bool.eq_false_iff]
    intro space
    rw [isSpace_iff] at space
    omega
  all_goals
    rintro rfl
    exact absurd digit (by decide)

theorem render_head (faithful : numbers.Faithful) {value : Json} (finite : value.isFinite = true)
    (level : Nat) :
    ∃ first rest, render numbers layout level value = first :: rest ∧ Begins first := by
  have number {numeral : Numeral} (valid : numeral.Valid) :
      ∃ first rest, numeral.text = first :: rest ∧ Begins first := by
    obtain ⟨first, rest, front, digit⟩ := numeral_head valid
    refine ⟨first, rest, front, ?_⟩
    rcases digit with digit | rfl
    · exact begins_digit digit
    · exact ⟨rfl, by decide, by decide⟩
  cases value with
  | null => exact ⟨_, _, by rw [render, nullText], rfl, by decide, by decide⟩
  | boolean value =>
    cases value with
    | true => exact ⟨_, _, by rw [render, booleanText, if_pos rfl], rfl, by decide, by decide⟩
    | false => exact ⟨_, _, by rw [render, booleanText, if_neg (by decide)], rfl, by decide, by decide⟩
  | integer value =>
    obtain ⟨first, rest, front, begins⟩ := number (Numeral.valid_ofInt value.toInt)
    rw [Numeral.text_ofInt] at front
    exact ⟨first, rest, by rw [render, SwString.number, front], begins⟩
  | double value =>
    obtain ⟨numeral, valid, written, -⟩ := literal_numeral numbers faithful
      (by simpa [Json.isFinite] using finite)
    obtain ⟨first, rest, front, begins⟩ := number valid
    exact ⟨first, rest, by rw [render, written, front], begins⟩
  | string value => exact ⟨_, _, by rw [render, quoted], rfl, by decide, by decide⟩
  | array elements =>
    cases elements with
    | nil => exact ⟨_, _, by rw [render], rfl, by decide, by decide⟩
    | cons element elements => exact ⟨_, _, by rw [render], rfl, by decide, by decide⟩
  | object members =>
    cases members with
    | nil => exact ⟨_, _, by rw [render], rfl, by decide, by decide⟩
    | cons member members => exact ⟨_, _, by rw [render], rfl, by decide, by decide⟩

variable {numbers layout}

theorem parseNull_spec {after : Bytes} (before : Bytes) (ends : Ends after) :
    parseNull (before ++ (nullText ++ after)) before.length =
      ((parseNull (before ++ (nullText ++ after)) before.length).map Prod.fst).map
        fun read => (read, (before ++ nullText).length) := by
  have literal := @parseLiteral_spec nullText _ before (by simp [nullText, isAlpha]) ends
  rw [parseNull, literal]
  dsimp only
  split <;> rfl

theorem parseBoolean_spec {value : Bool} {after : Bytes} (before : Bytes) (ends : Ends after) :
    parseBoolean (before ++ (booleanText value ++ after)) before.length =
      ((parseBoolean (before ++ (booleanText value ++ after)) before.length).map Prod.fst).map
        fun read => (read, (before ++ booleanText value).length) := by
  have letters : ∀ byte ∈ booleanText value, isAlpha byte = true := by
    cases value <;> simp [booleanText, isAlpha]
  have literal := parseLiteral_spec before letters ends
  rw [parseBoolean, literal]
  dsimp only
  split
  · rfl
  split <;> rfl

theorem byteAt_render {text before first rest after : Bytes} {head : UInt8}
    (shape : text = before ++ (first ++ after)) (front : first = head :: rest) :
    byteAt text before.length = head := by
  rw [shape, front]
  exact byteAt_here before _

theorem parseScalar_numeral {numeral : Numeral} {text before after : Bytes}
    (valid : numeral.Valid) (shape : text = before ++ (numeral.text ++ after)) (ends : Ends after) :
    parseScalar numbers text before.length =
      (readNumber numbers text before.length (before ++ numeral.text).length numeral.isFloating).map
        fun read => (read, (before ++ numeral.text).length) := by
  obtain ⟨first, rest, front, digit⟩ := numeral_head valid
  have here := byteAt_render shape front
  have number := parseNumber_spec numbers before valid ends
  have range : isDigit first = true ∨ first = 0x2d := digit
  have apart : first ≠ 0x22 ∧ first ≠ 0x74 ∧ first ≠ 0x66 ∧ first ≠ 0x6e := by
    rcases digit with digit | rfl
    · refine ⟨?_, ?_, ?_, ?_⟩
      all_goals
        rintro rfl
        exact absurd digit (by decide)
    · decide
  rw [← shape] at number
  rw [parseScalar, here, if_neg apart.1, if_neg (by simp [apart]), if_neg apart.2.2.2, if_pos range, number]

/-- Every value without parts is read by its first byte. -/
theorem parseScalar_render (faithful : numbers.Faithful) {value : Json} {level : Nat}
    {text before after : Bytes} (finite : value.isFinite = true)
    (array : ∀ elements, value ≠ .array elements) (object : ∀ members, value ≠ .object members)
    (shape : text = before ++ (render numbers layout level value ++ after)) (ends : Ends after) :
    parseScalar numbers text before.length =
      (reread numbers layout text level before.length value).map
        fun read => (read, (before ++ render numbers layout level value).length) := by
  cases value with
  | array elements => exact absurd rfl (array elements)
  | object members => exact absurd rfl (object members)
  | null =>
    rw [render] at shape
    have spec := parseNull_spec before ends
    rw [← shape] at spec
    have here : byteAt text before.length = 0x6e := byteAt_render shape rfl
    rw [parseScalar, here, if_neg (by decide), if_neg (by decide), if_pos rfl, reread,
      rereadScalar, render]
    exact spec
  | boolean value =>
    rw [render] at shape
    have spec := @parseBoolean_spec value _ before ends
    rw [← shape] at spec
    rw [parseScalar, reread, rereadScalar, render]
    cases value with
    | true =>
      have here : byteAt text before.length = 0x74 := byteAt_render shape rfl
      rw [here, if_neg (by decide), if_pos (.inl rfl)]
      exact spec
    | false =>
      have here : byteAt text before.length = 0x66 := byteAt_render shape rfl
      rw [here, if_neg (by decide), if_pos (.inr rfl)]
      exact spec
  | string value =>
    rw [render] at shape
    have spec := parseString_spec value before after
    rw [← shape] at spec
    have here : byteAt text before.length = 0x22 := byteAt_render shape rfl
    rw [parseScalar, here, if_pos rfl, reread, render]
    change (parseString text before.length).map _ = _
    rw [spec]
    rfl
  | integer value =>
    have written : render numbers layout level (.integer value) =
        (Numeral.ofInt value.toInt).text := by
      rw [render, SwString.number, Numeral.text_ofInt]
    rw [written] at shape
    rw [parseScalar_numeral (Numeral.valid_ofInt _) shape ends, reread, rereadScalar, written,
      length_append, SwString.number, Numeral.text_ofInt]
    rfl
  | double value =>
    obtain ⟨numeral, valid, written, floating⟩ := literal_numeral numbers faithful
      (by simpa [Json.isFinite] using finite)
    have rendered : render numbers layout level (.double value) = numeral.text := by
      rw [render, written]
    rw [rendered] at shape
    rw [parseScalar_numeral valid shape ends, reread, rereadScalar, rendered, length_append,
      written, floating]

theorem skipWhitespace_blank {blank after : Bytes} (before : Bytes) (white : Blank blank)
    (stops : Stops isSpace after) :
    skipWhitespace (before ++ (blank ++ after)) before.length = (before ++ blank).length :=
  skipWhile_run before white stops

theorem stops_begins (begins : Begins first) : Stops isSpace (first :: rest) := stops_cons begins.1

theorem ends_cons {byte : UInt8} {rest : Bytes} (digit : isDigit byte = false)
    (alpha : isAlpha byte = false) (point : byte ≠ 0x2e) : Ends (byte :: rest) :=
  ⟨stops_cons digit, stops_cons alpha, fun same => point (Option.some.inj same)⟩

theorem stops_nil {test : UInt8 → Bool} : Stops test [] := fun _ same => by cases same

theorem ends_nil : Ends [] where
  digit := stops_nil
  alpha := stops_nil
  point same := by cases same

theorem ends_space (space : isSpace byte = true) : Ends (byte :: rest) := by
  have range := isSpace_iff.mp space
  refine ends_cons ?_ ?_ ?_
  · rw [Bool.eq_false_iff]
    intro digit
    rw [isDigit_iff] at digit
    omega
  · rw [Bool.eq_false_iff, isAlpha]
    intro alpha
    simp only [Bool.or_eq_true, Bool.and_eq_true, decide_eq_true_eq, UInt8.le_iff_toNat_le] at alpha
    change 65 ≤ byte.toNat ∧ byte.toNat ≤ 90 ∨ 97 ≤ byte.toNat ∧ byte.toNat ≤ 122 at alpha
    omega
  · rintro rfl
    exact absurd space (by decide)

theorem ends_blank {blank : Bytes} {byte : UInt8} {rest : Bytes} (white : Blank blank)
    (next : Ends (byte :: rest)) : Ends (blank ++ byte :: rest) := by
  cases blank with
  | nil => exact next
  | cons space more => exact ends_space (white space mem_cons_self)

theorem ends_renderMembers (level : Nat) (members : List (Bytes × Json)) (after : Bytes) :
    Ends (renderMembers numbers layout level false members ++ after) := by
  cases members with
  | nil =>
    rw [renderMembers, append_assoc]
    exact ends_blank (layout.afterMembers_blank level) (ends_cons rfl rfl (by decide))
  | cons member members =>
    rw [renderMembers]
    exact ends_cons rfl rfl (by decide)

theorem ends_renderElements (level : Nat) (elements : List Json) (after : Bytes) :
    Ends (renderElements numbers layout level false elements ++ after) := by
  cases elements with
  | nil =>
    rw [renderElements, append_assoc]
    exact ends_blank (layout.afterElements_blank level) (ends_cons rfl rfl (by decide))
  | cons element elements =>
    rw [renderElements]
    exact ends_cons rfl rfl (by decide)

theorem renderElements_comma (level : Nat) (element : Json) (elements : List Json) :
    ∃ tail, renderElements numbers layout level false (element :: elements) = 0x2c :: tail := by
  rw [renderElements]
  exact ⟨_, rfl⟩

theorem renderMembers_comma (level : Nat) (member : Bytes × Json) (members : List (Bytes × Json)) :
    ∃ tail, renderMembers numbers layout level false (member :: members) = 0x2c :: tail := by
  rw [renderMembers]
  exact ⟨_, rfl⟩

theorem parseKey_spec (key before after : Bytes) :
    parseKey (before ++ (quoted key ++ 0x3a :: after)) before.length =
      .ok (key, (before ++ quoted key).length + 1) := by
  have here : byteAt (before ++ (quoted key ++ 0x3a :: after)) before.length = 0x22 :=
    byteAt_here before _
  have read := parseString_spec key before (0x3a :: after)
  have skipped := skipWhitespace_blank (before ++ quoted key) blank_nil
    (stops_cons rfl : Stops isSpace (0x3a :: after))
  have colon : byteAt (before ++ (quoted key ++ 0x3a :: after)) (before ++ quoted key).length =
      0x3a := by
    rw [← append_assoc]
    exact byteAt_here _ _
  rw [nil_append, append_nil, append_assoc] at skipped
  rw [parseKey, here, if_neg (by simp), read]
  change (if _ then _ else _) = _
  dsimp only
  rw [skipped, colon, if_neg (by simp)]
  rfl

variable (numbers layout) in
/-- The parser gives what the tokens of the written value are reread as, and ends behind it. -/
def Reparses (value : Json) : Prop :=
  ∀ {level fuel : Nat} {text before blank after : Bytes},
    text = before ++ (blank ++ (render numbers layout level value ++ after)) → Blank blank →
    Ends after → 2 * (text.length - before.length) < fuel →
    parseJson numbers text fuel before.length =
      (reread numbers layout text level (before ++ blank).length value).map
        fun read => (read, (before ++ blank ++ render numbers layout level value).length)

/-- White space before a value is skipped up to its first byte, and the value is parsed. -/
theorem parseJson_behind (faithful : numbers.Faithful)
    {text before blank rest : Bytes} (finite : value.isFinite = true)
    (reparses : Reparses numbers layout value)
    (shape : text = before ++ (blank ++ (render numbers layout level value ++ rest)))
    (white : Blank blank) (ends : Ends rest)
    (enough : 2 * (text.length - before.length) < fuel) :
    skipWhitespace text before.length = (before ++ blank).length ∧
    (before ++ blank).length < text.length ∧
    (∃ first, byteAt text (before ++ blank).length = first ∧ Begins first) ∧
    parseJson numbers text fuel (before ++ blank).length =
      (reread numbers layout text level (before ++ blank).length value).map
        fun read => (read, (before ++ blank ++ render numbers layout level value).length) := by
  obtain ⟨first, more, front, begins⟩ := render_head numbers layout faithful finite level
  have skipped := skipWhitespace_blank before white
    (stops_begins begins : Stops isSpace (first :: (more ++ rest)))
  have moved : text = before ++ blank ++ ([] ++ (render numbers layout level value ++ rest)) := by
    rw [shape, nil_append, append_assoc]
  have there : byteAt text (before ++ blank).length = first :=
    byteAt_render (by rw [moved, nil_append]) front
  have longer : text.length = (before ++ blank).length + (render numbers layout level value).length +
      rest.length := by
    rw [shape]
    simp only [length_append]
    omega
  have parsed := reparses moved blank_nil ends
    (show 2 * (text.length - (before ++ blank).length) < fuel by rw [length_append]; omega)
  rw [append_nil] at parsed
  refine ⟨?_, ?_, ⟨first, there, begins⟩, parsed⟩
  · rw [shape, front]
    exact skipped
  · rw [longer, front]
    simp only [length_cons]
    omega

theorem closing_spec {text before blank after : Bytes} {close : UInt8}
    (shape : text = before ++ (blank ++ close :: after)) (white : Blank blank)
    (dark : isSpace close = false) :
    skipWhitespace text before.length = (before ++ blank).length ∧
    ¬ text.length ≤ (before ++ blank).length ∧ byteAt text (before ++ blank).length = close := by
  have skipped := skipWhitespace_blank before white
    (stops_cons dark : Stops isSpace (close :: after))
  rw [← shape] at skipped
  refine ⟨skipped, ?_, ?_⟩
  · rw [shape]
    simp only [length_append, length_cons]
    omega
  · rw [shape, ← append_assoc]
    exact byteAt_here _ _

/-- The loop over elements, behind a bracket or a comma. -/
theorem parseArray_render (faithful : numbers.Faithful) {element : Json} {elements : List Json}
    (each : ∀ other ∈ element :: elements, other.isFinite = true ∧ Reparses numbers layout other)
    {level fuel : Nat} {first : Bool} {text before after : Bytes} {found : List Json}
    (shape : text = before ++
      (renderElements numbers layout level first (element :: elements) ++ after))
    (enough : 2 * (text.length - (before ++ Layout.comma first).length) + 1 < fuel) :
    parseArray numbers text fuel (before ++ Layout.comma first).length found =
      (rereadElements numbers layout text level before.length first (element :: elements)).map
        fun read => (.array (found ++ read), (before ++
          renderElements numbers layout level first (element :: elements)).length) := by
  induction elements generalizing element fuel first before found with
  | nil =>
    obtain ⟨finite, reparses⟩ := each element mem_cons_self
    obtain ⟨fuel, rfl⟩ := Nat.exists_eq_add_of_le' (show 1 ≤ fuel by omega)
    have inner : text = before ++ Layout.comma first ++ (layout.beforeElement first level ++
        (render numbers layout (level + 1) element ++
          (layout.afterElements level ++ 0x5d :: after))) := by
      rw [shape]
      simp [renderElements, Layout.elementHead]
    obtain ⟨skipped, short, ⟨start, there, begins⟩, parsed⟩ := parseJson_behind faithful finite
      reparses inner (layout.beforeElement_blank first level)
      (ends_blank (layout.afterElements_blank level) (ends_cons rfl rfl (by decide)))
      (show _ < fuel by omega)
    obtain ⟨closing, more, close⟩ := @closing_spec text (before ++ Layout.comma first ++
      layout.beforeElement first level ++ render numbers layout (level + 1) element)
      (layout.afterElements level) after 0x5d (by rw [inner]; simp)
      (layout.afterElements_blank level) rfl
    have place : before.length + (layout.elementHead level first).length =
        (before ++ Layout.comma first ++ layout.beforeElement first level).length := by
      simp only [Layout.elementHead, length_append]
      omega
    rw [parseArray, skipped, if_neg (not_le.mpr short), there, if_neg begins.2.1, parsed,
      rereadElements, rereadElements, place]
    cases reread numbers layout text (level + 1)
      (before ++ Layout.comma first ++ layout.beforeElement first level).length element with
    | error problem => rfl
    | ok read =>
      change (if _ then _ else _) = _
      dsimp only
      rw [closing, if_neg more, close, if_neg (by decide), if_pos rfl]
      refine congrArg (fun stop => Except.ok (Json.array (found ++ [read]), stop)) ?_
      simp only [Layout.elementHead, renderElements, length_append, length_cons,
        length_nil]
      omega
  | cons next elements ih =>
    obtain ⟨finite, reparses⟩ := each element mem_cons_self
    obtain ⟨fuel, rfl⟩ := Nat.exists_eq_add_of_le' (show 1 ≤ fuel by omega)
    have inner : text = before ++ Layout.comma first ++ (layout.beforeElement first level ++
        (render numbers layout (level + 1) element ++
          (renderElements numbers layout level false (next :: elements) ++ after))) := by
      rw [shape, renderElements]
      simp [Layout.elementHead]
    obtain ⟨skipped, short, ⟨start, there, begins⟩, parsed⟩ := parseJson_behind faithful finite
      reparses inner (layout.beforeElement_blank first level) (ends_renderElements level _ after)
      (show _ < fuel by omega)
    obtain ⟨tail, comma⟩ := @renderElements_comma numbers layout level next elements
    obtain ⟨closing, more, close⟩ := @closing_spec text (before ++ Layout.comma first ++
      layout.beforeElement first level ++ render numbers layout (level + 1) element) []
      (tail ++ after) 0x2c (by rw [inner, comma]; simp) blank_nil rfl
    have place : before.length + (layout.elementHead level first).length =
        (before ++ Layout.comma first ++ layout.beforeElement first level).length := by
      simp only [Layout.elementHead, length_append]
      omega
    have others := @ih next (fun other member => each other (mem_cons_of_mem _ member)) fuel
      false (before ++ Layout.comma first ++ layout.beforeElement first level ++
        render numbers layout (level + 1) element)
    have ended : (before ++ Layout.comma first ++ layout.beforeElement first level).length +
        (render numbers layout (level + 1) element).length = (before ++ Layout.comma first ++
          layout.beforeElement first level ++ render numbers layout (level + 1) element).length :=
      length_append.symm
    rw [append_nil] at closing more close
    rw [parseArray, skipped, if_neg (not_le.mpr short), there, if_neg begins.2.1, parsed,
      rereadElements, place, ended]
    cases reread numbers layout text (level + 1)
      (before ++ Layout.comma first ++ layout.beforeElement first level).length element with
    | error problem => rfl
    | ok read =>
      have rest := @others (found ++ [read]) (by rw [inner]; simp) (by
        have single : (Layout.comma false).length = 1 := rfl
        simp only [length_append, single] at enough short ⊢
        omega)
      have behind : ∀ bytes : Bytes, (bytes ++ Layout.comma false).length = bytes.length + 1 :=
        fun bytes => length_append
      rw [behind] at rest
      change (if _ then _ else _) = _
      dsimp only
      rw [closing, if_neg more, close, if_pos rfl, rest]
      change _ = Except.map _ (rereadElements numbers layout text level _ false
        (next :: elements) >>= _)
      cases rereadElements numbers layout text level (before ++ Layout.comma first ++
        layout.beforeElement first level ++ render numbers layout (level + 1) element).length false
        (next :: elements) with
      | error problem => rfl
      | ok others =>
        refine congrArg Except.ok (Prod.ext ?_ ?_)
        · simp
        · have unrolled : renderElements numbers layout level first (element :: next :: elements) =
              layout.elementHead level first ++ (render numbers layout (level + 1) element ++
                renderElements numbers layout level false (next :: elements)) := by
            rw [renderElements]
          rw [unrolled]
          simp [Layout.elementHead]

theorem found_below {found members : List (Bytes × Json)} {key : Bytes} {value : Json}
    (ordered : (found.map Prod.fst ++ ((key, value) :: members).map Prod.fst).Pairwise (· < ·)) :
    ∀ entry ∈ found, entry.1 < key := by
  intro entry member
  rw [pairwise_append] at ordered
  exact ordered.2.2 entry.1 (mem_map_of_mem member) key mem_cons_self

/-- A key is found behind white space, and its value behind the colon. -/
theorem parseMember_behind {key : Bytes} {value : Json} {level fuel : Nat}
    {text before blank rest : Bytes} (reparses : Reparses numbers layout value)
    (shape : text = before ++ (blank ++ (quoted key ++ 0x3a :: (layout.beforeColonValue ++
      (render numbers layout level value ++ rest)))))
    (white : Blank blank) (ends : Ends rest)
    (enough : 2 * (text.length - before.length) < fuel) :
    skipWhitespace text before.length = (before ++ blank).length ∧
    ¬ text.length ≤ (before ++ blank).length ∧ byteAt text (before ++ blank).length = 0x22 ∧
    parseKey text (before ++ blank).length =
      .ok (key, (before ++ blank ++ quoted key).length + 1) ∧
    parseJson numbers text fuel ((before ++ blank ++ quoted key).length + 1) =
      (reread numbers layout text level
        (before ++ blank ++ quoted key ++ 0x3a :: layout.beforeColonValue).length value).map
        fun read => (read, (before ++ blank ++ quoted key ++ 0x3a :: layout.beforeColonValue ++
          render numbers layout level value).length) := by
  obtain ⟨skipped, more, quote⟩ := @closing_spec text before blank (escapeString key ++ [0x22] ++
    0x3a :: (layout.beforeColonValue ++ (render numbers layout level value ++ rest))) 0x22
    (by rw [shape, quoted]; simp) white rfl
  have keyed := parseKey_spec key (before ++ blank) (layout.beforeColonValue ++
    (render numbers layout level value ++ rest))
  have inner : text = before ++ blank ++ quoted key ++ [0x3a] ++ (layout.beforeColonValue ++
      (render numbers layout level value ++ rest)) := by
    rw [shape]
    simp
  have parsed := reparses inner layout.beforeColonValue_blank ends
    (show 2 * (text.length - (before ++ blank ++ quoted key ++ [0x3a]).length) < fuel by
      simp only [length_append]
      omega)
  have colon : (before ++ blank ++ quoted key ++ [0x3a]).length =
      (before ++ blank ++ quoted key).length + 1 := length_append
  rw [colon, append_assoc _ [0x3a], singleton_append] at parsed
  rw [append_assoc before, ← shape] at keyed
  exact ⟨skipped, more, quote, keyed, parsed⟩

/-- The loop over members, behind a brace or a comma. -/
theorem parseObject_render {member : Bytes × Json} {members : List (Bytes × Json)}
    (each : ∀ other ∈ member :: members, Reparses numbers layout other.2)
    {level fuel : Nat} {first : Bool} {text before after : Bytes} {found : List (Bytes × Json)}
    (ordered : (found.map Prod.fst ++ (member :: members).map Prod.fst).Pairwise (· < ·))
    (shape : text = before ++
      (renderMembers numbers layout level first (member :: members) ++ after))
    (enough : 2 * (text.length - (before ++ Layout.comma first).length) + 1 < fuel) :
    parseObject numbers text fuel (before ++ Layout.comma first).length found =
      (rereadMembers numbers layout text level before.length first (member :: members)).map
        fun read => (.object (found ++ read), (before ++
          renderMembers numbers layout level first (member :: members)).length) := by
  induction members generalizing member fuel first before found with
  | nil =>
    obtain ⟨key, value⟩ := member
    obtain ⟨fuel, rfl⟩ := Nat.exists_eq_add_of_le' (show 1 ≤ fuel by omega)
    have inner : text = before ++ Layout.comma first ++ (layout.beforeMember first level ++
        (quoted key ++ 0x3a :: (layout.beforeColonValue ++
          (render numbers layout (level + 1) value ++
            (layout.afterMembers level ++ 0x7d :: after))))) := by
      rw [shape]
      simp [renderMembers, Layout.memberHead]
    obtain ⟨skipped, short, there, keyed, parsed⟩ := parseMember_behind
      (each (key, value) mem_cons_self) inner (layout.beforeMember_blank first level)
      (ends_blank (layout.afterMembers_blank level) (ends_cons rfl rfl (by decide)))
      (show _ < fuel by omega)
    obtain ⟨closing, more, close⟩ := @closing_spec text (before ++ Layout.comma first ++
      layout.beforeMember first level ++ quoted key ++ 0x3a :: layout.beforeColonValue ++
        render numbers layout (level + 1) value) (layout.afterMembers level) after 0x7d
      (by rw [inner]; simp) (layout.afterMembers_blank level) rfl
    have place : before.length + (layout.memberHead level first key).length =
        (before ++ Layout.comma first ++ layout.beforeMember first level ++ quoted key ++
          0x3a :: layout.beforeColonValue).length := by
      simp only [Layout.memberHead, length_append]
      omega
    rw [parseObject, skipped, if_neg short, there, if_neg (by decide), keyed, rereadMembers,
      rereadMembers, place]
    change (parseJson numbers text fuel _ >>= _) = _
    rw [parsed]
    cases reread numbers layout text (level + 1) (before ++ Layout.comma first ++
      layout.beforeMember first level ++ quoted key ++ 0x3a :: layout.beforeColonValue).length
      value with
    | error problem => rfl
    | ok read =>
      change (if _ then _ else _) = _
      dsimp only
      rw [closing, if_neg more, close, if_neg (by decide), if_pos rfl,
        SortedMap.insertEntry_above (found_below ordered)]
      refine congrArg (fun stop => Except.ok (Json.object (found ++ [(key, read)]), stop)) ?_
      simp only [Layout.memberHead, renderMembers, length_append, length_cons,
        length_nil]
      omega
  | cons next members ih =>
    obtain ⟨key, value⟩ := member
    obtain ⟨fuel, rfl⟩ := Nat.exists_eq_add_of_le' (show 1 ≤ fuel by omega)
    have inner : text = before ++ Layout.comma first ++ (layout.beforeMember first level ++
        (quoted key ++ 0x3a :: (layout.beforeColonValue ++
          (render numbers layout (level + 1) value ++
            (renderMembers numbers layout level false (next :: members) ++ after))))) := by
      rw [shape, renderMembers]
      simp [Layout.memberHead]
    obtain ⟨skipped, short, there, keyed, parsed⟩ := parseMember_behind
      (each (key, value) mem_cons_self) inner (layout.beforeMember_blank first level)
      (ends_renderMembers level _ after) (show _ < fuel by omega)
    obtain ⟨tail, comma⟩ := @renderMembers_comma numbers layout level next members
    obtain ⟨closing, more, close⟩ := @closing_spec text (before ++ Layout.comma first ++
      layout.beforeMember first level ++ quoted key ++ 0x3a :: layout.beforeColonValue ++
        render numbers layout (level + 1) value) [] (tail ++ after) 0x2c
      (by rw [inner, comma]; simp) blank_nil rfl
    have place : before.length + (layout.memberHead level first key).length =
        (before ++ Layout.comma first ++ layout.beforeMember first level ++ quoted key ++
          0x3a :: layout.beforeColonValue).length := by
      simp only [Layout.memberHead, length_append]
      omega
    have others := @ih next (fun other member => each other (mem_cons_of_mem _ member)) fuel
      false (before ++ Layout.comma first ++ layout.beforeMember first level ++ quoted key ++
        0x3a :: layout.beforeColonValue ++ render numbers layout (level + 1) value)
    have ended : (before ++ Layout.comma first ++ layout.beforeMember first level ++ quoted key ++
        0x3a :: layout.beforeColonValue).length + (render numbers layout (level + 1) value).length =
        (before ++ Layout.comma first ++ layout.beforeMember first level ++ quoted key ++
          0x3a :: layout.beforeColonValue ++ render numbers layout (level + 1) value).length :=
      length_append.symm
    rw [append_nil] at closing more close
    rw [parseObject, skipped, if_neg short, there, if_neg (by decide), keyed, rereadMembers, place,
      ended]
    change (parseJson numbers text fuel _ >>= _) = _
    rw [parsed]
    cases reread numbers layout text (level + 1) (before ++ Layout.comma first ++
      layout.beforeMember first level ++ quoted key ++ 0x3a :: layout.beforeColonValue).length
      value with
    | error problem => rfl
    | ok read =>
      have rest := @others (found ++ [(key, read)]) (by simpa using ordered) (by rw [inner]; simp)
        (by
          have single : (Layout.comma false).length = 1 := rfl
          simp only [length_append, length_cons, single] at enough short ⊢
          omega)
      have behind : ∀ bytes : Bytes, (bytes ++ Layout.comma false).length = bytes.length + 1 :=
        fun bytes => length_append
      rw [behind] at rest
      change (if _ then _ else _) = _
      dsimp only
      rw [closing, if_neg more, close, if_pos rfl,
        SortedMap.insertEntry_above (found_below ordered), rest]
      change _ = Except.map _ (rereadMembers numbers layout text level _ false
        (next :: members) >>= _)
      cases rereadMembers numbers layout text level (before ++ Layout.comma first ++
        layout.beforeMember first level ++ quoted key ++ 0x3a :: layout.beforeColonValue ++
          render numbers layout (level + 1) value).length false (next :: members) with
      | error problem => rfl
      | ok others =>
        refine congrArg Except.ok (Prod.ext ?_ ?_)
        · simp
        · have unrolled : renderMembers numbers layout level first
              ((key, value) :: next :: members) = layout.memberHead level first key ++
                (render numbers layout (level + 1) value ++
                  renderMembers numbers layout level false (next :: members)) := by
            rw [renderMembers]
          rw [unrolled]
          simp [Layout.memberHead]

theorem Json.finite_element (finite : elementsFinite elements = true) :
    ∀ element ∈ elements, element.isFinite = true := by
  induction elements with
  | nil => simp
  | cons element elements ih =>
    rw [elementsFinite, Bool.and_eq_true] at finite
    intro other member
    rcases mem_cons.mp member with rfl | member
    · exact finite.1
    · exact ih finite.2 other member

theorem Json.finite_member (finite : membersFinite members = true) :
    ∀ member ∈ members, member.2.isFinite = true := by
  induction members with
  | nil => simp
  | cons member members ih =>
    obtain ⟨key, value⟩ := member
    rw [membersFinite, Bool.and_eq_true] at finite
    intro other inside
    rcases mem_cons.mp inside with rfl | inside
    · exact finite.1
    · exact ih finite.2 other inside

theorem Json.ordered_element (ordered : elementsOrdered elements) :
    ∀ element ∈ elements, element.isOrdered := by
  induction elements with
  | nil => simp
  | cons element elements ih =>
    rw [elementsOrdered] at ordered
    intro other member
    rcases mem_cons.mp member with rfl | member
    · exact ordered.1
    · exact ih ordered.2 other member

theorem Json.ordered_member (ordered : membersOrdered members) :
    ∀ member ∈ members, member.2.isOrdered := by
  induction members with
  | nil => simp
  | cons member members ih =>
    obtain ⟨key, value⟩ := member
    rw [membersOrdered] at ordered
    intro other inside
    rcases mem_cons.mp inside with rfl | inside
    · exact ordered.1
    · exact ih ordered.2 other inside

theorem numeral_apart {numeral : Numeral} (valid : numeral.Valid)
    (front : numeral.text = first :: rest) : first ≠ 0x7b ∧ first ≠ 0x5b := by
  obtain ⟨other, more, same, digit⟩ := numeral_head valid
  cases front.symm.trans same
  rcases digit with digit | rfl
  · constructor
    all_goals
      rintro rfl
      exact absurd digit (by decide)
  · decide

theorem render_apart (faithful : numbers.Faithful) {value : Json} {level : Nat} {first : UInt8}
    {rest : Bytes} (finite : value.isFinite = true) (array : ∀ elements, value ≠ .array elements)
    (object : ∀ members, value ≠ .object members)
    (front : render numbers layout level value = first :: rest) :
    first ≠ 0x7b ∧ first ≠ 0x5b := by
  cases value with
  | array elements => exact absurd rfl (array elements)
  | object members => exact absurd rfl (object members)
  | null =>
    rw [render, nullText] at front
    cases front
    decide
  | boolean value =>
    rw [render, booleanText] at front
    cases value with
    | true =>
      cases front
      decide
    | false =>
      cases front
      decide
  | string value =>
    rw [render, quoted] at front
    cases front
    decide
  | integer value =>
    rw [render, SwString.number, ← Numeral.text_ofInt] at front
    exact numeral_apart (Numeral.valid_ofInt _) front
  | double value =>
    obtain ⟨numeral, valid, written, -⟩ := literal_numeral numbers faithful
      (by simpa [Json.isFinite] using finite)
    rw [render, written] at front
    exact numeral_apart valid front

theorem reparses_scalar (faithful : numbers.Faithful) {value : Json}
    (finite : value.isFinite = true) (array : ∀ elements, value ≠ .array elements)
    (object : ∀ members, value ≠ .object members) : Reparses numbers layout value := by
  intro level fuel text before blank after shape white ends enough
  obtain ⟨first, more, front, begins⟩ := render_head numbers layout faithful finite level
  obtain ⟨fuel, rfl⟩ := Nat.exists_eq_add_of_le' (show 1 ≤ fuel by omega)
  obtain ⟨skipped, short, there⟩ := @closing_spec text before blank (more ++ after) first
    (by rw [shape, front]; simp) white begins.1
  have moved : text = before ++ blank ++ (render numbers layout level value ++ after) := by
    rw [shape, append_assoc]
  have parsed := parseScalar_render faithful finite array object moved ends
  have apart := render_apart faithful finite array object front
  rw [parseJson, skipped, if_neg short, there, if_neg apart.1, if_neg apart.2, parsed]

/-- Every written value is parsed again, its tokens as they are reread. -/
theorem parseJson_render (faithful : numbers.Faithful) (value : Json)
    (finite : value.isFinite = true) (ordered : value.isOrdered) :
    Reparses numbers layout value := by
  induction value using Json.induct with
  | array elements ih =>
    intro level fuel text before blank after shape white ends enough
    obtain ⟨fuel, rfl⟩ := Nat.exists_eq_add_of_le' (show 1 ≤ fuel by omega)
    rw [Json.isFinite] at finite
    rw [Json.isOrdered] at ordered
    cases elements with
    | nil =>
      obtain ⟨skipped, short, there⟩ := @closing_spec text before blank
        (layout.emptyArray ++ 0x5d :: after) 0x5b (by rw [shape, render]; simp) white rfl
      obtain ⟨inside, more, close⟩ := @closing_spec text (before ++ blank ++ [0x5b])
        layout.emptyArray after 0x5d (by rw [shape, render]; simp) layout.emptyArray_blank rfl
      have opened : (before ++ blank ++ [0x5b]).length = (before ++ blank).length + 1 :=
        length_append
      obtain ⟨fuel, rfl⟩ := Nat.exists_eq_add_of_le' (show 1 ≤ fuel by
        simp only [length_append] at short enough
        omega)
      rw [opened] at inside
      rw [parseJson, skipped, if_neg short, there, if_neg (by decide), if_pos rfl, parseArray,
        inside, if_neg more, close, if_pos rfl, reread, render]
      refine congrArg (fun stop => Except.ok (Json.array [], stop)) ?_
      simp only [length_append, length_cons, length_nil]
      omega
    | cons element elements =>
      obtain ⟨skipped, short, there⟩ := @closing_spec text before blank
        (renderElements numbers layout level true (element :: elements) ++ after) 0x5b
        (by rw [shape, render]; simp) white rfl
      have loop := @parseArray_render numbers layout faithful element elements
        (fun other member => ⟨Json.finite_element finite other member,
          ih other member (Json.finite_element finite other member)
            (Json.ordered_element ordered other member)⟩)
        level fuel true text (before ++ blank ++ [0x5b]) after [] (by rw [shape, render]; simp)
        (by
          simp only [length_append, Layout.comma, if_true, length_nil] at short enough ⊢
          simp only [length_singleton]
          omega)
      have opened : (before ++ blank ++ [0x5b]).length = (before ++ blank).length + 1 :=
        length_append
      rw [Layout.comma, if_pos rfl, append_nil, opened] at loop
      rw [parseJson, skipped, if_neg short, there, if_neg (by decide), if_pos rfl, loop, reread,
        render]
      cases rereadElements numbers layout text level ((before ++ blank).length + 1) true
        (element :: elements) with
      | error problem => rfl
      | ok read =>
        refine congrArg (fun stop => Except.ok (Json.array read, stop)) ?_
        simp
  | object members ih =>
    intro level fuel text before blank after shape white ends enough
    obtain ⟨fuel, rfl⟩ := Nat.exists_eq_add_of_le' (show 1 ≤ fuel by omega)
    rw [Json.isFinite] at finite
    rw [Json.isOrdered] at ordered
    have opened : (before ++ blank ++ [0x7b]).length = (before ++ blank).length + 1 :=
      length_append
    cases members with
    | nil =>
      obtain ⟨skipped, short, there⟩ := @closing_spec text before blank (0x7d :: after) 0x7b
        (by rw [shape, render]; simp) white rfl
      obtain ⟨inside, more, close⟩ := @closing_spec text (before ++ blank ++ [0x7b]) [] after 0x7d
        (by rw [shape, render]; simp) blank_nil rfl
      obtain ⟨fuel, rfl⟩ := Nat.exists_eq_add_of_le' (show 1 ≤ fuel by
        simp only [length_append] at short enough
        omega)
      rw [append_nil, opened] at inside more close
      rw [parseJson, skipped, if_neg short, there, if_pos rfl, parseObject, inside, if_neg more,
        close, if_pos rfl, reread, render]
      refine congrArg (fun stop => Except.ok (Json.object [], stop)) ?_
      simp only [length_append, length_cons, length_nil]
    | cons member members =>
      obtain ⟨skipped, short, there⟩ := @closing_spec text before blank
        (renderMembers numbers layout level true (member :: members) ++ after) 0x7b
        (by rw [shape, render]; simp) white rfl
      have loop := @parseObject_render numbers layout member members
        (fun other inside => ih other inside (Json.finite_member finite other inside)
          (Json.ordered_member ordered.2 other inside))
        level fuel true text (before ++ blank ++ [0x7b]) after [] ordered.1
        (by rw [shape, render]; simp) (by
          simp only [length_append, Layout.comma, if_true, length_nil] at short enough ⊢
          simp only [length_singleton]
          omega)
      rw [Layout.comma, if_pos rfl, append_nil, opened] at loop
      rw [parseJson, skipped, if_neg short, there, if_pos rfl, loop, reread, render]
      cases rereadMembers numbers layout text level ((before ++ blank).length + 1) true
        (member :: members) with
      | error problem => rfl
      | ok read =>
        refine congrArg (fun stop => Except.ok (Json.object read, stop)) ?_
        simp
  | null =>
    exact reparses_scalar faithful finite (fun _ same => by cases same) fun _ same => by cases same
  | boolean value =>
    exact reparses_scalar faithful finite (fun _ same => by cases same) fun _ same => by cases same
  | integer value =>
    exact reparses_scalar faithful finite (fun _ same => by cases same) fun _ same => by cases same
  | double value =>
    exact reparses_scalar faithful finite (fun _ same => by cases same) fun _ same => by cases same
  | string value =>
    exact reparses_scalar faithful finite (fun _ same => by cases same) fun _ same => by cases same

variable (numbers layout)

mutual

/-- The numbers and literals of a value that is written at a position, each with its own. -/
def tokens (level position : Nat) : Json → List (Nat × Json)
  | .object [] => []
  | .object (member :: members) => memberTokens level (position + 1) true (member :: members)
  | .array [] => []
  | .array (element :: elements) => elementTokens level (position + 1) true (element :: elements)
  | .null => [(position, .null)]
  | .boolean value => [(position, .boolean value)]
  | .integer value => [(position, .integer value)]
  | .double value => [(position, .double value)]
  | .string _ => []

def memberTokens (level position : Nat) (first : Bool) :
    List (Bytes × Json) → List (Nat × Json)
  | [] => []
  | (key, value) :: members =>
    let start := position + (layout.memberHead level first key).length
    tokens (level + 1) start value ++ memberTokens level
      (start + (render numbers layout (level + 1) value).length) false members

def elementTokens (level position : Nat) (first : Bool) : List Json → List (Nat × Json)
  | [] => []
  | element :: elements =>
    let start := position + (layout.elementHead level first).length
    tokens (level + 1) start element ++ elementTokens level
      (start + (render numbers layout (level + 1) element).length) false elements

end

/-- The text that is cut out for a token is read as the token. -/
def Intact (text : Bytes) (token : Nat × Json) : Prop :=
  rereadScalar numbers text token.1 token.2 = .ok token.2

variable {numbers layout}

theorem rereadElements_iff (each : ∀ element ∈ elements, ∀ level position,
      reread numbers layout text level position element = .ok element ↔
        ∀ token ∈ tokens numbers layout level position element, Intact numbers text token) :
    rereadElements numbers layout text level position first elements = .ok elements ↔
      ∀ token ∈ elementTokens numbers layout level position first elements,
        Intact numbers text token := by
  induction elements generalizing position first with
  | nil => exact iff_of_true rfl (by simp [elementTokens])
  | cons element elements ih =>
    have here := each element mem_cons_self (level + 1)
      (position + (layout.elementHead level first).length)
    have rest := @ih (position + (layout.elementHead level first).length +
      (render numbers layout (level + 1) element).length) false
      fun other member => each other (mem_cons_of_mem _ member)
    rw [rereadElements, elementTokens, forall_mem_append, ← here, ← rest]
    cases reread numbers layout text (level + 1)
      (position + (layout.elementHead level first).length) element with
    | error problem => simp [bind, Except.bind]
    | ok read =>
      cases rereadElements numbers layout text level
        (position + (layout.elementHead level first).length +
          (render numbers layout (level + 1) element).length) false elements with
      | error problem => simp [bind, Except.bind]
      | ok others => simp [bind, Except.bind, pure, Except.pure]

theorem rereadMembers_iff (each : ∀ member ∈ members, ∀ level position,
      reread numbers layout text level position member.2 = .ok member.2 ↔
        ∀ token ∈ tokens numbers layout level position member.2, Intact numbers text token) :
    rereadMembers numbers layout text level position first members = .ok members ↔
      ∀ token ∈ memberTokens numbers layout level position first members,
        Intact numbers text token := by
  induction members generalizing position first with
  | nil => exact iff_of_true rfl (by simp [memberTokens])
  | cons member members ih =>
    obtain ⟨key, value⟩ := member
    have here := each (key, value) mem_cons_self (level + 1)
      (position + (layout.memberHead level first key).length)
    have rest := @ih (position + (layout.memberHead level first key).length +
      (render numbers layout (level + 1) value).length) false
      fun other inside => each other (mem_cons_of_mem _ inside)
    rw [rereadMembers, memberTokens, forall_mem_append, ← here, ← rest]
    cases reread numbers layout text (level + 1)
      (position + (layout.memberHead level first key).length) value with
    | error problem => simp [bind, Except.bind]
    | ok read =>
      cases rereadMembers numbers layout text level
        (position + (layout.memberHead level first key).length +
          (render numbers layout (level + 1) value).length) false members with
      | error problem => simp [bind, Except.bind]
      | ok others => simp [bind, Except.bind, pure, Except.pure]

theorem reread_iff {value : Json} {text : Bytes} (level position : Nat) :
    reread numbers layout text level position value = .ok value ↔
      ∀ token ∈ tokens numbers layout level position value, Intact numbers text token := by
  have mapped {α : Type} {result : Except JsonFailure α} {wrap : α → Json} {inner : α}
      (injective : ∀ other, wrap other = wrap inner → other = inner) :
      result.map wrap = .ok (wrap inner) ↔ result = .ok inner := by
    cases result with
    | error problem => simp [Except.map]
    | ok other =>
      simp only [Except.map, Except.ok.injEq]
      exact ⟨injective other, fun same => by rw [same]⟩
  induction value using Json.induct generalizing level position with
  | array elements ih =>
    cases elements with
    | nil => simp [reread, tokens]
    | cons element elements =>
      rw [reread, tokens, mapped fun _ same => by injection same]
      exact rereadElements_iff ih
  | object members ih =>
    cases members with
    | nil => simp [reread, tokens]
    | cons member members =>
      rw [reread, tokens, mapped fun _ same => by injection same]
      exact rereadMembers_iff ih
  | string value => simp [reread, tokens]
  | _ => simp [reread, tokens, Intact]

/-- A written value is read back exactly when its tokens are intact in the text. -/
theorem fromJson_render (faithful : numbers.Faithful) {value : Json}
    (finite : value.isFinite = true) (ordered : value.isOrdered) (level : Nat) :
    fromJson numbers (render numbers layout level value) = .ok value ↔
      ∀ token ∈ tokens numbers layout level 0 value,
        Intact numbers (render numbers layout level value) token := by
  obtain ⟨first, more, front, begins⟩ := render_head numbers layout faithful finite level
  have start : contentStart (render numbers layout level value) = 0 := by
    rw [contentStart, if_neg]
    rintro ⟨-, mark, -⟩
    rw [front] at mark
    exact begins.2.2 mark
  have parsed := @parseJson_render numbers layout faithful value finite ordered level
    (2 * (render numbers layout level value).length + 2) (render numbers layout level value) [] []
    [] (by simp) blank_nil ends_nil (by simp)
  have ended := skipWhitespace_blank (render numbers layout level value) blank_nil stops_nil
  rw [nil_append, append_nil] at ended
  rw [nil_append, nil_append, length_nil] at parsed
  rw [fromJson, start, parsed, ← reread_iff]
  cases reread numbers layout (render numbers layout level value) level 0 value with
  | error problem => simp [Except.map, bind, Except.bind]
  | ok read =>
    change (if _ then _ else _) = _ ↔ _
    dsimp only
    rw [ended, if_neg (lt_irrefl _)]
    rfl

end SwStack.Types
