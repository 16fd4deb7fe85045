import SwStack.Types.JsonParser

/-! What the scanners of the parser make of tokens: strings come back whole, and numbers and
words end where what follows cannot continue them. -/
namespace SwStack.Types

open SwStack.Lib List

theorem byteAt_here (before rest : Bytes) :
    byteAt (before ++ rest) before.length = rest.headD 0 := by
  rw [byteAt, getD_append_right _ _ _ _ le_rfl, Nat.sub_self]
  cases rest <;> rfl

/-- What follows does not continue a run. -/
def Stops (test : UInt8 → Bool) (after : Bytes) : Prop :=
  ∀ byte, after.head? = some byte → test byte = false

variable {test : UInt8 → Bool} {byte : UInt8}

theorem stops_cons {rest : Bytes} (fails : test byte = false) : Stops test (byte :: rest) := by
  intro other same
  cases same
  exact fails

variable {after : Bytes}

theorem takeWhile_run {run : Bytes}
    (each : ∀ byte ∈ run, test byte = true) (stops : Stops test after) :
    (run ++ after).takeWhile test = run := by
  rw [takeWhile_append_of_pos each]
  cases after with
  | nil => simp
  | cons byte rest => simp [stops byte rfl]

theorem skipWhile_run (before : Bytes)
    (each : ∀ byte ∈ run, test byte = true) (stops : Stops test after) :
    skipWhile test (before ++ (run ++ after)) before.length = (before ++ run).length := by
  rw [skipWhile, drop_left, takeWhile_run each stops, length_append]

/-- What follows a token does not continue it. -/
structure Ends (after : Bytes) : Prop where
  digit : Stops isDigit after
  alpha : Stops isAlpha after
  point : after.head? ≠ some 0x2e

theorem Stops.headD (stops : Stops test after)
    (zero : test 0 = false) : test (after.headD 0) = false := by
  cases after with
  | nil => exact zero
  | cons byte rest => exact stops byte rfl

theorem scanWhole_spec (before : Bytes) (valid : IsWhole whole) (stops : Stops isDigit after) :
    scanWhole (before ++ (whole ++ after)) before.length = .ok (before ++ whole).length := by
  obtain ⟨digits, filled, single⟩ := valid
  cases whole with
  | nil => exact absurd rfl filled
  | cons first rest =>
    have here : byteAt (before ++ (first :: rest ++ after)) before.length = first :=
      byteAt_here before _
    have next : byteAt (before ++ (first :: rest ++ after)) (before.length + 1) =
        (rest ++ after).headD 0 := by
      have moved := byteAt_here (before ++ [first]) (rest ++ after)
      rw [length_append, append_assoc] at moved
      exact moved
    have run := skipWhile_run (before ++ [first])
      (fun byte member => digits byte (mem_cons_of_mem _ member)) stops
    rw [append_assoc, length_append, append_assoc] at run
    rw [scanWhole, here, next, if_neg (by simp [digits first mem_cons_self]), if_neg]
    · exact congrArg Except.ok run
    · rintro ⟨rfl, another⟩
      have alone : rest = [] := by simpa using single rfl
      subst alone
      have fails := stops.headD rfl
      rw [nil_append] at another
      rw [another] at fails
      cases fails

theorem scanFraction_spec (before : Bytes) (valid : ∀ digits, fraction = some digits →
      (∀ byte ∈ digits, isDigit byte = true) ∧ digits ≠ [])
    (stops : Stops isDigit after) (point : fraction = none → after.head? ≠ some 0x2e) :
    scanFraction (before ++ (fraction.elim [] (0x2e :: ·) ++ after)) before.length =
      .ok ((before ++ fraction.elim [] (0x2e :: ·)).length, fraction.isSome) := by
  cases fraction with
  | none =>
    have here := byteAt_here before after
    have other : after.headD 0 ≠ 0x2e := by
      cases after with
      | nil => decide
      | cons byte rest => exact fun same => point rfl (congrArg some same)
    rw [Option.elim_none, nil_append, scanFraction, here, if_pos other, append_nil]
    rfl
  | some digits =>
    obtain ⟨each, nonempty⟩ := valid digits rfl
    cases digits with
    | nil => exact absurd rfl nonempty
    | cons first rest =>
      have here : byteAt (before ++ (0x2e :: first :: rest ++ after)) before.length = 0x2e :=
        byteAt_here before _
      have next : byteAt (before ++ (0x2e :: first :: rest ++ after)) (before.length + 1) =
          first := by
        have moved := byteAt_here (before ++ [0x2e]) (first :: rest ++ after)
        rw [length_append, append_assoc] at moved
        exact moved
      have run := skipWhile_run (before ++ [0x2e]) each stops
      rw [append_assoc, length_append, append_assoc] at run
      rw [Option.elim_some, scanFraction, here, next, if_neg (by simp),
        if_neg (by simp [each first mem_cons_self])]
      exact congrArg (fun stop => Except.ok (stop, true)) run

theorem byteAt_next (before : Bytes) (first : UInt8) (rest : Bytes) :
    byteAt (before ++ first :: rest) (before.length + 1) = rest.headD 0 := by
  have moved := byteAt_here (before ++ [first]) rest
  rw [length_append, append_assoc] at moved
  exact moved

/-- A letter of the exponent, its sign and its digits. -/
theorem scanExponent_digits (before : Bytes) (signed : sign = [] ∨ sign = [0x2b] ∨ sign = [0x2d])
    (each : ∀ byte ∈ digits, isDigit byte = true) (nonempty : digits ≠ [])
    (stops : Stops isDigit after) :
    scanExponent (before ++ (0x65 :: (sign ++ digits) ++ after)) before.length =
      .ok ((before ++ 0x65 :: (sign ++ digits)).length, true) := by
  have here : byteAt (before ++ (0x65 :: (sign ++ digits) ++ after)) before.length = 0x65 :=
    byteAt_here before _
  cases digits with
  | nil => exact absurd rfl nonempty
  | cons first rest =>
    have plain := each first mem_cons_self
    have start : (if byteAt (before ++ (0x65 :: (sign ++ first :: rest) ++ after))
          (before.length + 1) = 0x2b ∨
        byteAt (before ++ (0x65 :: (sign ++ first :: rest) ++ after)) (before.length + 1) = 0x2d
        then before.length + 2 else before.length + 1) = (before ++ 0x65 :: sign).length := by
      have next := byteAt_next before 0x65 (sign ++ first :: rest ++ after)
      rw [cons_append, next]
      rcases signed with rfl | rfl | rfl
      · rw [if_neg]
        · simp
        · rintro (same | same)
          · have wrong : first = 0x2b := same
            rw [wrong] at plain
            exact absurd plain (by decide)
          · have wrong : first = 0x2d := same
            rw [wrong] at plain
            exact absurd plain (by decide)
      · rw [if_pos (.inl rfl)]
        simp
      · rw [if_pos (.inr rfl)]
        simp
    have whole : before ++ (0x65 :: (sign ++ first :: rest) ++ after) =
        (before ++ 0x65 :: sign) ++ (first :: rest ++ after) := by simp
    have digit : byteAt (before ++ (0x65 :: (sign ++ first :: rest) ++ after))
        (before ++ 0x65 :: sign).length = first := by
      rw [whole]
      exact byteAt_here _ _
    have run := skipWhile_run (before ++ 0x65 :: sign) each stops
    rw [← whole] at run
    rw [scanExponent, here, if_neg (by simp)]
    dsimp only
    rw [start, digit, if_neg (by simp [plain]), run]
    simp

theorem scanExponent_none (before : Bytes) (ends : Ends after) :
    scanExponent (before ++ after) before.length = .ok (before.length, false) := by
  have here := byteAt_here before after
  have other := ends.alpha.headD rfl
  rw [scanExponent, here, if_pos]
  constructor
  · intro same
    rw [same] at other
    exact absurd other (by decide)
  · intro same
    rw [same] at other
    exact absurd other (by decide)

theorem scanExponent_spec {numeral : Numeral} (before : Bytes)
    (valid : numeral.Valid) (ends : Ends after) :
    scanExponent (before ++ (numeral.exponentText ++ after)) before.length =
      .ok ((before ++ numeral.exponentText).length, numeral.exponent.isSome) := by
  have parts := valid.exponent
  unfold Numeral.exponentText
  cases found : numeral.exponent with
  | none =>
    rw [Option.elim_none, nil_append, append_nil]
    exact scanExponent_none before ends
  | some exponent =>
    rw [found] at parts
    obtain ⟨signed, each, filled⟩ := parts exponent.1 exponent.2 rfl
    exact scanExponent_digits before signed each filled ends.digit

theorem stops_exponentText (numeral : Numeral) (ends : Ends after) :
    Stops isDigit (numeral.exponentText ++ after) := by
  unfold Numeral.exponentText
  cases numeral.exponent with
  | none => exact ends.digit
  | some exponent => exact stops_cons rfl

theorem stops_fractionText (numeral : Numeral) (ends : Ends after) :
    Stops isDigit (numeral.fractionText ++ (numeral.exponentText ++ after)) := by
  unfold Numeral.fractionText
  cases numeral.fraction with
  | none => exact stops_exponentText numeral ends
  | some digits => exact stops_cons rfl

/-- The scanners find the end of a numeral, and its lexeme is read. -/
theorem parseNumber_spec (numbers : DoubleText) {numeral : Numeral}
    (before : Bytes) (valid : numeral.Valid) (ends : Ends after) :
    parseNumber numbers (before ++ (numeral.text ++ after)) before.length =
      (readNumber numbers (before ++ (numeral.text ++ after)) before.length
        (before ++ numeral.text).length numeral.isFloating).map
          fun value => (value, (before ++ numeral.text).length) := by
  obtain ⟨first, rest, front⟩ : ∃ first rest, numeral.whole = first :: rest :=
    exists_cons_of_ne_nil valid.whole.2.1
  have start : (if byteAt (before ++ (numeral.text ++ after)) before.length = 0x2d
      then before.length + 1 else before.length) = (before ++ numeral.sign).length := by
    rw [byteAt_here, Numeral.text, Numeral.sign]
    cases numeral.negative with
    | true => simp
    | false =>
      have plain := valid.whole.1 first (by rw [front]; exact mem_cons_self)
      rw [front, if_neg]
      · simp
      · intro same
        have wrong : first = 0x2d := same
        rw [wrong] at plain
        exact absurd plain (by decide)
  have whole := scanWhole_spec (before ++ numeral.sign) valid.whole (stops_fractionText numeral ends)
  have fraction := scanFraction_spec (before ++ numeral.sign ++ numeral.whole) valid.fraction
    (stops_exponentText numeral ends) (by
      intro empty
      unfold Numeral.exponentText
      cases numeral.exponent with
      | none => exact ends.point
      | some exponent => exact fun same => by cases same)
  have exponent := scanExponent_spec (before ++ numeral.sign ++ numeral.whole ++
    numeral.fractionText) valid ends
  have shape : before ++ (numeral.text ++ after) = before ++ numeral.sign ++ (numeral.whole ++
      (numeral.fractionText ++ (numeral.exponentText ++ after))) := by
    simp [Numeral.text]
  have ended : before ++ numeral.text = before ++ numeral.sign ++ numeral.whole ++
      numeral.fractionText ++ numeral.exponentText := by
    simp [Numeral.text]
  have fraction : scanFraction (before ++ (numeral.text ++ after))
      (before ++ numeral.sign ++ numeral.whole).length = .ok ((before ++ numeral.sign ++
        numeral.whole ++ numeral.fractionText).length, numeral.fraction.isSome) := by
    rw [shape, ← append_assoc (before ++ numeral.sign)]
    exact fraction
  have exponent : scanExponent (before ++ (numeral.text ++ after)) (before ++ numeral.sign ++
      numeral.whole ++ numeral.fractionText).length =
      .ok ((before ++ numeral.text).length, numeral.exponent.isSome) := by
    rw [shape, ended, ← append_assoc (before ++ numeral.sign),
      ← append_assoc (before ++ numeral.sign ++ numeral.whole)]
    exact exponent
  rw [← shape] at whole
  rw [parseNumber, start, whole]
  change (scanFraction _ _ >>= _) = _
  rw [fraction]
  change (scanExponent _ _ >>= _) = _
  rw [exponent]
  rfl

theorem parseLiteral_spec {word after : Bytes} (before : Bytes)
    (each : ∀ byte ∈ word, isAlpha byte = true) (ends : Ends after) :
    parseLiteral (before ++ (word ++ after)) before.length =
      (cutText (before ++ (word ++ after)) before.length (before ++ word).length,
        (before ++ word).length) := by
  rw [parseLiteral, skipWhile_run before each ends.alpha]

theorem escapeByte_head (needs : needsEscape byte = true) :
    ∃ tail, escapeByte byte = 0x5c :: tail := by
  unfold escapeByte
  rw [if_neg (by simp [needs])]
  split_ifs <;> exact ⟨_, rfl⟩

theorem escapeString_ordinary {span : Bytes}
    (ordinary : ∀ byte ∈ span, (!needsEscape byte) = true) : escapeString span = span := by
  induction span with
  | nil => rfl
  | cons byte rest ih =>
    have here := ordinary byte mem_cons_self
    rw [escapeString, flatMap_cons]
    change _ ++ escapeString rest = _
    rw [ih fun other member => ordinary other (mem_cons_of_mem _ member), escapeByte,
      if_pos (by simpa using here)]
    rfl

theorem byteAt_add (before rest : Bytes) (distance : Nat) :
    byteAt (before ++ rest) (before.length + distance) = rest.getD distance 0 := by
  rw [byteAt, getD_append_right _ _ _ _ (Nat.le_add_right _ _), Nat.add_sub_cancel_left]

theorem hexValue_hexDigit (small : value < 16) : hexValue (hexDigit value) = some value := by
  interval_cases value <;> rfl

theorem readHexDigits_four {text : Bytes} {index first second third fourth : Nat}
    (single : hexValue (byteAt text index) = some first)
    (two : hexValue (byteAt text (index + 1)) = some second)
    (three : hexValue (byteAt text (index + 1 + 1)) = some third)
    (four : hexValue (byteAt text (index + 1 + 1 + 1)) = some fourth) :
    readHexDigits text 4 index 0 = .ok
      ((((0 <<< 4 ||| first) <<< 4 ||| second) <<< 4 ||| third) <<< 4 ||| fourth) := by
  simp only [readHexDigits, single, two, three, four]

/-- A control character comes back from its four digits. -/
theorem parseUnicodeEscape_spec (small : byte.toNat < 32) (before after : Bytes) :
    parseUnicodeEscape (before ++ 0x5c :: 0x75 :: 0x30 :: 0x30 :: hexDigit (byte.toNat / 16) ::
      hexDigit (byte.toNat % 16) :: after) (before.length + 2) =
      .ok ([byte], before.length + 6) := by
  have join : ∀ value < 32,
      ((((0 <<< 4 ||| 0) <<< 4 ||| 0) <<< 4 ||| value / 16) <<< 4 ||| value % 16) = value := by
    decide
  have digits := @readHexDigits_four (before ++ 0x5c :: 0x75 :: 0x30 :: 0x30 ::
    hexDigit (byte.toNat / 16) :: hexDigit (byte.toNat % 16) :: after) (before.length + 2)
    0 0 (byte.toNat / 16) (byte.toNat % 16) (by rw [byteAt_add]; rfl)
    (by rw [Nat.add_assoc, byteAt_add]; rfl)
    (by rw [Nat.add_assoc, Nat.add_assoc, byteAt_add]; exact hexValue_hexDigit (by omega))
    (by
      rw [Nat.add_assoc, Nat.add_assoc, Nat.add_assoc, byteAt_add]
      exact hexValue_hexDigit (by omega))
  have unit : parseUnicodeEscapeSequence (before ++ 0x5c :: 0x75 :: 0x30 :: 0x30 ::
      hexDigit (byte.toNat / 16) :: hexDigit (byte.toNat % 16) :: after) (before.length + 2) =
      .ok byte.toNat := by
    rw [parseUnicodeEscapeSequence, if_neg (by simp only [length_append, length_cons]; omega),
      digits, join _ small]
  rw [parseUnicodeEscape, unit]
  change (if _ then _ else _) = _
  rw [if_neg (by omega), if_neg (by omega), appendUtf8FromCodePoint, if_pos (by omega),
    UInt8.ofNat_toNat]
  rfl

theorem parseEscape_char (before after : Bytes)
    (known : (code, byte) ∈ [(0x22, 0x22), (0x5c, 0x5c), (0x62, 0x08), (0x66, 0x0c), (0x6e, 0x0a),
      (0x72, 0x0d), ((0x74, 0x09) : UInt8 × UInt8)]) :
    parseEscape (before ++ 0x5c :: code :: after) (before.length + 1) =
      .ok ([byte], before.length + 1 + 1) := by
  have here : byteAt (before ++ 0x5c :: code :: after) (before.length + 1) = code :=
    byteAt_next before _ _
  rw [parseEscape, here, if_neg (by simp only [length_append, length_cons]; omega)]
  simp only [mem_cons, not_mem_nil, or_false, Prod.mk.injEq] at known
  rcases known with ⟨rfl, rfl⟩ | ⟨rfl, rfl⟩ | ⟨rfl, rfl⟩ | ⟨rfl, rfl⟩ | ⟨rfl, rfl⟩ | ⟨rfl, rfl⟩ |
    ⟨rfl, rfl⟩ <;> rfl

theorem parseEscape_spec (needs : needsEscape byte = true) (before after : Bytes) :
    parseEscape (before ++ (escapeByte byte ++ after)) (before.length + 1) =
      .ok ([byte], (before ++ escapeByte byte).length) := by
  rw [length_append, escapeByte, if_neg (by simp [needs])]
  split
  · rename_i same
    subst same
    exact parseEscape_char before after (by simp)
  split
  · rename_i same
    subst same
    exact parseEscape_char before after (by simp)
  split
  · rename_i same
    subst same
    exact parseEscape_char before after (by simp)
  split
  · rename_i same
    subst same
    exact parseEscape_char before after (by simp)
  split
  · rename_i same
    subst same
    exact parseEscape_char before after (by simp)
  split
  · rename_i same
    subst same
    exact parseEscape_char before after (by simp)
  split
  · rename_i same
    subst same
    exact parseEscape_char before after (by simp)
  · rename_i quote slash _ _ _ _ _
    have small : byte.toNat < 32 := by
      simpa [needsEscape, quote, slash, UInt8.lt_iff_toNat_lt] using needs
    have here : byteAt (before ++ 0x5c :: 0x75 :: 0x30 :: 0x30 :: hexDigit (byte.toNat / 16) ::
        hexDigit (byte.toNat % 16) :: after) (before.length + 1) = 0x75 := byteAt_next before _ _
    have read := parseUnicodeEscape_spec small before after
    simp only [cons_append, nil_append]
    rw [parseEscape, here, if_neg (by simp only [length_append, length_cons]; omega)]
    exact read

theorem split_ordinary (value : Bytes) : ∃ span rest, value = span ++ rest ∧
    (∀ byte ∈ span, (!needsEscape byte) = true) ∧ Stops (fun byte => !needsEscape byte) rest := by
  induction value with
  | nil => exact ⟨[], [], rfl, by simp, fun _ same => by cases same⟩
  | cons byte value ih =>
    cases needs : needsEscape byte with
    | true => exact ⟨[], byte :: value, rfl, by simp, stops_cons (by rw [needs]; rfl)⟩
    | false =>
      obtain ⟨span, rest, rfl, ordinary, stops⟩ := ih
      refine ⟨byte :: span, rest, rfl, fun other member => ?_, stops⟩
      rcases mem_cons.mp member with rfl | member
      · rw [needs]
        rfl
      · exact ordinary other member

theorem escapeString_append (left right : Bytes) :
    escapeString (left ++ right) = escapeString left ++ escapeString right :=
  flatMap_append

theorem length_escapeString (value : Bytes) : value.length ≤ (escapeString value).length := by
  induction value with
  | nil => exact le_rfl
  | cons byte value ih =>
    have single : 1 ≤ (escapeByte byte).length := by
      unfold escapeByte
      split_ifs <;> simp
    rw [escapeString, flatMap_cons, length_append, length_cons]
    change _ ≤ _ + (escapeString value).length
    omega

/-- The loop over a string reads its bytes back up to the quote. -/
theorem parseStringLoop_spec {value : Bytes} (before after result : Bytes) {fuel : Nat}
    (enough : value.length < fuel) :
    parseStringLoop (before ++ (escapeString value ++ 0x22 :: after)) fuel before.length result =
      .ok (result ++ value, (before ++ escapeString value).length + 1) := by
  induction fuel generalizing value before result with
  | zero => omega
  | succ fuel ih =>
    obtain ⟨span, rest, rfl, ordinary, stops⟩ := split_ordinary value
    rw [escapeString_append, escapeString_ordinary ordinary]
    rw [length_append] at enough
    cases rest with
    | nil =>
      have taken : (span ++ 0x22 :: after).takeWhile (fun byte => !needsEscape byte) = span :=
        takeWhile_run ordinary (stops_cons rfl)
      have here : byteAt (before ++ (span ++ 0x22 :: after)) (before.length + span.length) =
          0x22 := by
        rw [byteAt_add]
        simp
      rw [escapeString, flatMap_nil, append_nil, parseStringLoop,
        drop_left, taken, here, if_neg (by simp), if_pos rfl, length_append]
    | cons byte rest =>
      have needs : needsEscape byte = true := by simpa using stops byte rfl
      obtain ⟨tail, escaped⟩ := escapeByte_head needs
      have shape : before ++ (span ++ escapeString (byte :: rest) ++ 0x22 :: after) =
          before ++ span ++ (escapeByte byte ++ (escapeString rest ++ 0x22 :: after)) := by
        simp [escapeString]
      have taken : (span ++ (escapeByte byte ++ (escapeString rest ++ 0x22 :: after))).takeWhile
          (fun byte => !needsEscape byte) = span := by
        refine takeWhile_run ordinary ?_
        rw [escaped]
        exact stops_cons rfl
      have here : byteAt (before ++ span ++ (escapeByte byte ++ (escapeString rest ++
          0x22 :: after))) (before ++ span).length = 0x5c := by
        rw [byteAt_here, escaped]
        rfl
      have escape := parseEscape_spec needs (before ++ span) (escapeString rest ++ 0x22 :: after)
      have more := @ih rest (before ++ span ++ escapeByte byte) (result ++ span ++ [byte])
        (by simp only [length_cons] at enough; omega)
      rw [shape, parseStringLoop, append_assoc before span, drop_left, taken,
        ← append_assoc before span, ← length_append, here, if_neg, if_neg (by decide), if_pos rfl, escape]
      · change parseStringLoop _ fuel _ _ = _
        rw [← append_assoc (before ++ span), more]
        simp [escapeString]
      · rw [escaped]
        simp only [length_append, length_cons]
        omega

theorem parseString_spec (value before after : Bytes) :
    parseString (before ++ (quoted value ++ after)) before.length =
      .ok (value, (before ++ quoted value).length) := by
  have longer : value.length ≤ (escapeString value).length := length_escapeString value
  have loop := @parseStringLoop_spec value (before ++ [0x22]) after []
    ((before ++ (quoted value ++ after)).length + 1) (by
      simp only [quoted, length_append, length_cons]
      omega)
  have shape : before ++ (quoted value ++ after) =
      before ++ [0x22] ++ (escapeString value ++ 0x22 :: after) := by simp [quoted]
  have start : (before ++ [0x22]).length = before.length + 1 := by simp
  rw [← shape, start] at loop
  rw [parseString, loop]
  simp [quoted, Nat.add_assoc]

end SwStack.Types
