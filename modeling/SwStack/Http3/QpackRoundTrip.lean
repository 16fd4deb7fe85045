import SwStack.Http3.Qpack

/-! What a field section decodes to. Every literal is taken from the section by a position that
is cast, so the fields come back where the casts find each literal again. -/
namespace SwStack.Http3

open SwStack.Lib SwStack.Types SwStack.Quic List

/-- A pattern that leaves the low bits of a first byte to the number. -/
def Leaves (prefixBits pattern : Nat) : Prop :=
  0 < maxPrefix prefixBits ∧ ∀ low ≤ maxPrefix prefixBits,
    (pattern ||| low) < 256 ∧ (pattern ||| low) &&& maxPrefix prefixBits = low

instance (prefixBits pattern : Nat) : Decidable (Leaves prefixBits pattern) :=
  inferInstanceAs (Decidable (_ ∧ ∀ low ≤ maxPrefix prefixBits, _ ∧ _))

theorem groups_bytes : ∀ low < 128, (low ||| 0x80) < 256 ∧ (low ||| 0x80) &&& 0x7f = low ∧
    (low ||| 0x80) &&& 0x80 ≠ 0 ∧ low &&& 0x7f = low ∧ low &&& 0x80 = 0 := by decide

theorem toNat_ofNat_of_lt (small : value < 256) : (UInt8.ofNat value).toNat = value := by
  rw [UInt8.toNat_ofNat', Nat.mod_eq_of_lt small]

variable {fuel : Nat} {before : Bytes}

theorem decodeGroups_byte (after : Bytes) :
    decodeGroups (fuel + 1) shift value (before ++ byte :: after) before.length =
      if byte.toNat &&& 0x80 = 0 then
        .ok ((value + ((byte.toNat &&& 0x7f) <<< shift % 2 ^ 64)) % 2 ^ 64, before.length + 1)
      else if 63 < shift + 7 then .error (.error "QPACK integer is too large")
      else decodeGroups fuel (shift + 7)
        ((value + ((byte.toNat &&& 0x7f) <<< shift % 2 ^ 64)) % 2 ^ 64) (before ++ byte :: after)
        (before.length + 1) := by
  rw [decodeGroups]
  beta_reduce
  rw [if_neg (by simp), getElem?_append_right le_rfl, Nat.sub_self, getElem?_cons_zero]

/-- Groups of seven bits are read back, as long as they and the sum fit. -/
theorem decodeGroups_yields {fuel value shift sum : Nat} (before : Bytes)
    (fits : value < 128 ^ (fuel + 1)) (few : shift + 7 * fuel ≤ 63)
    (small : sum + value * 2 ^ shift < 2 ^ 64) :
    (decodeGroups (fuel + 1) shift sum).Yields before (encodeGroups fuel value)
      (.ok (sum + value * 2 ^ shift)) := by
  have last {fuel value shift sum : Nat} {before : Bytes} (after : Bytes) (short : value < 128)
      (small : sum + value * 2 ^ shift < 2 ^ 64) :
      decodeGroups (fuel + 1) shift sum (before ++ ([UInt8.ofNat (value &&& 0x7f)] ++ after))
        before.length =
        Except.ok (sum + value * 2 ^ shift, (before ++ [UInt8.ofNat (value &&& 0x7f)]).length) := by
    obtain ⟨-, -, -, same, ends⟩ := groups_bytes value short
    rw [singleton_append, decodeGroups_byte, same, toNat_ofNat_of_lt (by omega), if_pos ends,
      same, Nat.shiftLeft_eq, Nat.mod_eq_of_lt (show value * 2 ^ shift < 2 ^ 64 by omega),
      Nat.mod_eq_of_lt small, length_append, length_singleton]
  induction fuel generalizing value shift sum before with
  | zero =>
    intro after
    exact last after (by simpa using fits) small
  | succ fuel ih =>
    rw [encodeGroups]
    split
    · rename_i long
      intro after
      have low : value &&& 0x7f = value % 128 := Nat.and_two_pow_sub_one_eq_mod value 7
      have high : value >>> 7 = value / 128 := Nat.shiftRight_eq_div_pow value 7
      obtain ⟨byte, same, continues, -, -⟩ :=
        groups_bytes (value % 128) (Nat.mod_lt _ (by decide))
      have digits : value % 128 * 2 ^ shift + value / 128 * 2 ^ (shift + 7) =
          value * 2 ^ shift := by
        rw [Nat.pow_add, Nat.mul_comm (2 ^ shift), ← Nat.mul_assoc, ← Nat.add_mul, Nat.mul_comm _
          (2 ^ 7), Nat.mod_add_div]
      have rest : value / 128 < 128 ^ (fuel + 1) := by
        rw [Nat.div_lt_iff_lt_mul (by decide), ← Nat.pow_succ]
        exact fits
      have read := @ih (value / 128) (shift + 7) (sum + value % 128 * 2 ^ shift)
        (before ++ [UInt8.ofNat (value % 128 ||| 0x80)]) rest (by omega) (by omega) after
      rw [append_assoc, singleton_append, Nat.add_assoc, digits] at read
      rw [low, high, cons_append, decodeGroups_byte, toNat_ofNat_of_lt byte,
        if_neg continues, if_neg (by omega), same, Nat.shiftLeft_eq,
        Nat.mod_eq_of_lt (show value % 128 * 2 ^ shift < 2 ^ 64 by omega),
        Nat.mod_eq_of_lt (show sum + value % 128 * 2 ^ shift < 2 ^ 64 by omega)]
      rw [length_append, length_singleton] at read
      rw [read]
      simp [Except.map]
    · rename_i short
      intro after
      exact last after (by omega) small

theorem encodeInteger_head {prefixBits pattern : Nat} (value : Nat) :
    ∃ low ≤ maxPrefix prefixBits, ∃ rest,
      encodeInteger value prefixBits pattern = UInt8.ofNat (pattern ||| low) :: rest := by
  unfold encodeInteger
  split
  · rename_i small
    exact ⟨value, small.le, [], rfl⟩
  · exact ⟨_, le_rfl, _, rfl⟩

theorem decodeInteger_yields {pattern value : Nat} (before : Bytes)
    (leaves : Leaves prefixBits pattern) (small : value < 2 ^ 64) :
    (decodeInteger prefixBits).Yields before (encodeInteger value prefixBits pattern)
      (.ok value) := by
  intro after
  unfold decodeInteger encodeInteger
  by_cases short : value < maxPrefix prefixBits
  · obtain ⟨byte, same⟩ := leaves.2 value short.le
    rw [if_pos short, if_neg (by simp), singleton_append, getElem?_append_right le_rfl,
      Nat.sub_self, getElem?_cons_zero]
    dsimp only
    rw [toNat_ofNat_of_lt byte, same, if_pos short]
    simp [Except.map]
  · obtain ⟨byte, same⟩ := leaves.2 _ le_rfl
    have groups := @decodeGroups_yields 9 (value - maxPrefix prefixBits) 0 (maxPrefix prefixBits)
      (before ++ [UInt8.ofNat (pattern ||| maxPrefix prefixBits)])
      ((Nat.sub_le _ _).trans_lt (small.trans (by decide))) (by decide) (by omega) after
    have sum : maxPrefix prefixBits + (value - maxPrefix prefixBits) * 2 ^ 0 = value := by omega
    rw [sum, append_assoc, singleton_append, length_append,
      length_singleton] at groups
    rw [if_neg short, if_neg (by simp), cons_append, getElem?_append_right le_rfl,
      Nat.sub_self, getElem?_cons_zero]
    dsimp only
    rw [toNat_ofNat_of_lt byte, same, if_neg (lt_irrefl _), groups]
    simp [Except.map]

/-- Whether the encoder writes a string in the Huffman code. -/
def isHuffman (str : Bytes) : Bool := (huffmanEncode str).length < str.length

/-- The bytes of a literal. -/
def literal (str : Bytes) : Bytes := if isHuffman str then huffmanEncode str else str

def stringHeader (str : Bytes) (prefixBits basePattern hBit : Nat) : Bytes :=
  encodeInteger ((literal str).length % 2 ^ 64) prefixBits
    (if isHuffman str then basePattern ||| hBit else basePattern)

theorem encodeString_eq (str : Bytes) (prefixBits basePattern hBit : Nat) :
    encodeString str prefixBits basePattern hBit =
      stringHeader str prefixBits basePattern hBit ++ literal str := by
  unfold encodeString stringHeader literal isHuffman
  by_cases shorter : (huffmanEncode str).length < str.length
  · simp [shorter]
  · simp [shorter]

theorem literal_length_le (str : Bytes) : (literal str).length ≤ str.length := by
  unfold literal isHuffman
  split
  · rename_i shorter
    exact (of_decide_eq_true shorter).le
  · exact le_rfl

/-- Patterns that tell the two ways of writing a string apart. -/
def TellsApart (prefixBits basePattern hBit : Nat) : Prop :=
  Leaves prefixBits basePattern ∧ Leaves prefixBits (basePattern ||| hBit) ∧
    ∀ low ≤ maxPrefix prefixBits, (basePattern ||| low) &&& hBit = 0 ∧
      ((basePattern ||| hBit) ||| low) &&& hBit ≠ 0

instance (prefixBits basePattern hBit : Nat) :
    Decidable (TellsApart prefixBits basePattern hBit) :=
  inferInstanceAs (Decidable (_ ∧ _ ∧ ∀ low ≤ maxPrefix prefixBits, _ ∧ _))

theorem peekByte_at (truncated : String) (before after : Bytes) (byte : UInt8) :
    peekByte truncated (before ++ byte :: after) before.length = .ok (byte, before.length) := by
  unfold peekByte
  rw [if_neg (by simp), getElem?_append_right le_rfl, Nat.sub_self, getElem?_cons_zero]

theorem stringHeader_head (str : Bytes) (apart : TellsApart prefixBits basePattern hBit) :
    ∃ first rest, stringHeader str prefixBits basePattern hBit = first :: rest ∧
      decide (first.toNat &&& hBit ≠ 0) = isHuffman str := by
  obtain ⟨raw, coded, flags⟩ := apart
  unfold stringHeader
  cases isHuffman str with
  | true =>
    obtain ⟨low, small, rest, same⟩ := encodeInteger_head ((literal str).length % 2 ^ 64)
    refine ⟨_, rest, same, ?_⟩
    rw [if_pos rfl, toNat_ofNat_of_lt (coded.2 low small).1]
    exact decide_eq_true (flags low small).2
  | false =>
    obtain ⟨low, small, rest, same⟩ := encodeInteger_head ((literal str).length % 2 ^ 64)
    refine ⟨_, rest, same, ?_⟩
    rw [if_neg (by decide), toNat_ofNat_of_lt (raw.2 low small).1]
    exact decide_eq_false (not_not_intro (flags low small).1)

/-- A string is read by its header, then its literal. -/
theorem decodeString_at (max : Nat) (before str after : Bytes)
    (apart : TellsApart prefixBits basePattern hBit) :
    decodeString prefixBits hBit max
        (before ++ (stringHeader str prefixBits basePattern hBit ++ after)) before.length =
      readLiteral (isHuffman str) max ((literal str).length % 2 ^ 64)
        (before ++ stringHeader str prefixBits basePattern hBit ++ after)
        (before ++ stringHeader str prefixBits basePattern hBit).length := by
  obtain ⟨first, rest, head, flag⟩ := stringHeader_head str apart
  have leaves : Leaves prefixBits
      (if isHuffman str then basePattern ||| hBit else basePattern) := by
    split
    · exact apart.2.1
    · exact apart.1
  have small := Nat.mod_lt (literal str).length (by decide : 0 < 2 ^ 64)
  unfold stringHeader at *
  generalize (literal str).length % 2 ^ 64 = length at *
  have read := decodeInteger_yields before leaves small after
  have peeked := peekByte_at "QPACK string literal is truncated" before (rest ++ after) first
  rw [← cons_append, ← head] at peeked
  unfold decodeString
  rw [Cursor.bind_apply, peeked]
  change (decodeInteger prefixBits >>= _) _ _ = _
  rw [Cursor.bind_apply, read, append_assoc]
  change readLiteral _ _ _ _ _ = _
  rw [flag]

variable {offset next : Nat}

theorem readLiteral_ok {huffman : Bool} {max length : Nat} (inside : offset ≤ input.length)
    (read : readLiteral huffman max length input offset = .ok (str, next)) :
    length ≤ maxInt ∧ offset + length ≤ input.length ∧ next = offset + length ∧
      mid input (toInt offset) (toInt length) =
        some (if huffman then huffmanEncode str else str) := by
  unfold readLiteral at read
  split at read
  · cases read
  split at read
  · cases read
  split at read
  · cases read
  rename_i enough _ small
  cases cut : mid input (toInt offset) (toInt length) with
  | none =>
    rw [cut] at read
    cases read
  | some raw =>
    rw [cut] at read
    cases huffman with
    | false =>
      cases read
      exact ⟨by omega, by omega, rfl, rfl⟩
    | true =>
      dsimp only at read
      rw [if_pos rfl] at read
      cases decoded : huffmanDecode raw max with
      | error message =>
        rw [decoded] at read
        cases read
      | ok out =>
        rw [decoded] at read
        cases read
        rw [if_pos rfl, huffmanEncode_decode decoded]
        exact ⟨by omega, by omega, rfl, rfl⟩

/-- A string whose literal the casts find. -/
def StringFound (before str : Bytes) (prefixBits basePattern hBit : Nat) : Prop :=
  (literal str).length ≤ maxInt ∧
    FoundIn (before ++ encodeString str prefixBits basePattern hBit)
      ((before ++ stringHeader str prefixBits basePattern hBit).length, literal str)

theorem stringFound_of_decodeString {max : Nat}
    {after : Bytes} (apart : TellsApart prefixBits basePattern hBit)
    (read : decodeString prefixBits hBit max
      (before ++ (encodeString str prefixBits basePattern hBit ++ after)) before.length =
      .ok (str, next)) :
    StringFound before str prefixBits basePattern hBit ∧
      next = (before ++ encodeString str prefixBits basePattern hBit).length := by
  rw [encodeString_eq, append_assoc, decodeString_at max before str _ apart] at read
  unfold StringFound
  rw [encodeString_eq]
  generalize stringHeader str prefixBits basePattern hBit = header at read ⊢
  rw [← append_assoc before]
  obtain ⟨small, inside, rfl, cut⟩ := readLiteral_ok (by simp) read
  rw [@List.length_append _ (before ++ header), Nat.add_le_add_iff_left] at inside
  have field := length_take_of_le inside
  have between := mid_between (before ++ header)
    ((literal str ++ after).take ((literal str).length % 2 ^ 64))
    ((literal str ++ after).drop ((literal str).length % 2 ^ 64)) (by rw [field]; exact small)
  rw [take_append_drop, field] at between
  have same := Option.some.inj (between.symm.trans cut)
  have whole : (literal str).length % 2 ^ 64 = (literal str).length := by
    have lengths := congrArg List.length same
    have near : castPosition (before ++ header).length ≤ (before ++ header).length :=
      sanitizePosition_toInt _ _
    rw [length_take, length_drop, @List.length_append _ (before ++ header),
      field] at lengths
    change _ = (literal str).length at lengths
    omega
  rw [whole] at small same ⊢
  rw [take_left] at same
  refine ⟨⟨small, (foundIn_iff _ _).mpr same⟩, ?_⟩
  rw [@List.length_append _ (before ++ header)]

/-- The failures that say a section is too large. -/
def IsSizeLimit (failure : DecodeFailure) : Prop :=
  failure = .error stringLimit ∨ failure = .error huffmanOutputLimit ∨
    failure = .error fieldsLimit

/-- A reader gives a value where it fits, and otherwise says that it is too large. -/
structure Delivers {α : Type} (reader : Decoder α) (before input : Bytes) (fits : Prop)
    (value : α) : Prop where
  given : fits → reader.Yields before input (.ok value)
  refused : ¬fits → ∃ failure, IsSizeLimit failure ∧ reader.Yields before input (.error failure)

theorem Delivers.bind {α β : Type} {reader : Decoder α} {next : α → Decoder β}
    {tail : Bytes} {fits whole : Prop} {value : α} {result : β}
    (first : Delivers reader before input fits value)
    (second : Delivers (next value) (before ++ input) tail whole result)
    (implies : whole → fits) : Delivers (reader >>= next) before (input ++ tail) whole result where
  given large := (first.given (implies large)).bind (second.given large)
  refused exceeds := by
    by_cases here : fits
    · obtain ⟨failure, limit, refused⟩ := second.refused exceeds
      exact ⟨failure, limit, (first.given here).bind refused⟩
    · obtain ⟨failure, limit, refused⟩ := first.refused here
      exact ⟨failure, limit, refused.bind_error⟩

theorem Delivers.after {α β : Type} {reader : Decoder α} {next : α → Decoder β}
    {tail : Bytes} {whole : Prop} {value : α} {result : β}
    (first : reader.Yields before input (.ok value))
    (second : Delivers (next value) (before ++ input) tail whole result) :
    Delivers (reader >>= next) before (input ++ tail) whole result where
  given fits := first.bind (second.given fits)
  refused exceeds := by
    obtain ⟨failure, limit, refused⟩ := second.refused exceeds
    exact ⟨failure, limit, first.bind refused⟩

theorem readLiteral_found (max : Nat) (after : Bytes) (small : (literal str).length ≤ maxInt)
    (found : FoundIn (before ++ literal str) (before.length, literal str)) :
    readLiteral (isHuffman str) max (literal str).length (before ++ (literal str ++ after))
        before.length =
      if (¬isHuffman str ∧ max < (literal str).length) ∨
          (isHuffman str ∧ max ≤ sizeMax / 4 ∧ max * 4 < (literal str).length) then
        .error (.error stringLimit)
      else if str.length ≤ max then .ok (str, (before ++ literal str).length)
      else .error (.error huffmanOutputLimit) := by
  have cut := mid_between before (literal str) after small
  rw [(foundIn_iff _ _).mp found] at cut
  have length : (before ++ (literal str ++ after)).length - before.length =
      (literal str).length + after.length := by
    simp
  unfold readLiteral
  rw [length, if_neg (by omega)]
  by_cases large : (¬isHuffman str ∧ max < (literal str).length) ∨
      (isHuffman str ∧ max ≤ sizeMax / 4 ∧ max * 4 < (literal str).length)
  · rw [if_pos large, if_pos large]
  rw [if_neg large, if_neg large, if_neg (by omega), cut, length_append]
  dsimp only
  unfold literal at *
  cases coded : isHuffman str with
  | true =>
    rw [if_pos rfl, if_pos rfl, huffmanDecode_encode]
    by_cases fits : str.length ≤ max
    · rw [if_pos fits, if_pos fits]
    · rw [if_neg fits, if_neg fits]
  | false =>
    rw [coded] at large
    have fits : str.length ≤ max := by
      by_contra exceeds
      exact large (.inl ⟨by decide, not_le.mp exceeds⟩)
    rw [if_neg (by decide), if_neg (by decide), if_pos fits]

theorem decodeString_delivers (max : Nat) (apart : TellsApart prefixBits basePattern hBit)
    (found : StringFound before str prefixBits basePattern hBit) :
    Delivers (decodeString prefixBits hBit max) before
      (encodeString str prefixBits basePattern hBit) (str.length ≤ max) str := by
  obtain ⟨small, foundIn⟩ := found
  have whole : (literal str).length % 2 ^ 64 = (literal str).length :=
    Nat.mod_eq_of_lt (small.trans_lt (by decide))
  have shorter := literal_length_le str
  have read (after : Bytes) := decodeString_at max before str (literal str ++ after) apart
  rw [encodeString_eq, ← append_assoc] at foundIn
  simp only [whole, readLiteral_found max _ small foundIn] at read
  rw [encodeString_eq]
  constructor
  · intro fits after
    rw [append_assoc, read, if_neg, if_pos fits, append_assoc]
    · rfl
    · rintro (⟨-, large⟩ | ⟨-, -, large⟩)
      · omega
      · omega
  · intro exceeds
    by_cases large : (¬isHuffman str ∧ max < (literal str).length) ∨
        (isHuffman str ∧ max ≤ sizeMax / 4 ∧ max * 4 < (literal str).length)
    · refine ⟨_, .inl rfl, fun after => ?_⟩
      rw [append_assoc, read, if_pos large]
      rfl
    · refine ⟨_, .inr (.inl rfl), fun after => ?_⟩
      rw [append_assoc, read, if_neg large, if_neg exceeds]
      rfl

/-- What a field counts for, with the overhead of its line. -/
def fieldBytes (field : HeaderField) : Nat :=
  field.1.length + field.2.length + fieldLineOverhead

def DecodedFields.append (decoded : DecodedFields) (field : HeaderField) : DecodedFields :=
  { out := decoded.out ++ [field], decodedBytes := decoded.decodedBytes + fieldBytes field }

theorem remainingBytes_eq (limit used reserved : Nat) :
    remainingBytes limit used reserved = limit - used - reserved := by
  unfold remainingBytes
  split
  · omega
  · rfl

theorem appendField_eq (limit : Nat) (decoded : DecodedFields) (field : HeaderField) :
    appendField limit decoded field =
      if decoded.decodedBytes + fieldBytes field ≤ limit then pure (decoded.append field)
      else Cursor.fail (.error fieldsLimit) := by
  have sum : decoded.decodedBytes + fieldLineOverhead + field.1.length + field.2.length =
      decoded.decodedBytes + fieldBytes field := by
    unfold fieldBytes
    omega
  unfold appendField
  dsimp only
  rw [sum]
  by_cases fits : decoded.decodedBytes + fieldBytes field ≤ limit
  · rw [if_pos fits, if_neg (by omega), if_neg (by omega), if_neg (by omega)]
    rfl
  · rw [if_neg fits]
    split
    · rfl
    split
    · rfl
    · rw [if_pos (by omega)]

theorem appendField_delivers (limit : Nat) (decoded : DecodedFields) (field : HeaderField)
    (before : Bytes) :
    Delivers (appendField limit decoded field) before []
      (decoded.decodedBytes + fieldBytes field ≤ limit) (decoded.append field) := by
  rw [appendField_eq]
  constructor
  · intro fits
    rw [if_pos fits]
    exact .pure _
  · intro exceeds
    rw [if_neg exceeds]
    exact ⟨_, .inr (.inr rfl), .fail _⟩

theorem appendField_ok {after : DecodedFields}
    (read : appendField limit decoded field input offset = .ok (after, next))
    (same : after.out = decoded.out ++ [other]) : field = other ∧ next = offset := by
  rw [appendField_eq] at read
  split at read
  · cases read
    exact ⟨singleton_inj.mp (append_cancel_left same), rfl⟩
  · cases read

theorem getElem_of_findIdx? {α : Type} {list : List α} {matching : α → Bool}
    (found : list.findIdx? matching = some index) :
    ∃ entry, list[index]? = some entry ∧ matching entry = true := by
  obtain ⟨inside, matched, -⟩ := findIdx?_eq_some_iff_getElem.mp found
  exact ⟨_, getElem?_eq_getElem inside, matched⟩

theorem index_lt_of_nameValueAt (entry : nameValueAt index = some field) : index < 2 ^ 64 := by
  obtain ⟨found, inside, -⟩ := Option.map_eq_some_iff.mp entry
  obtain ⟨below, -⟩ := List.getElem?_eq_some_iff.mp inside
  exact below.trans (by decide)

theorem nameValueAt_findExact {value : Bytes}
    (found : findExact name value = some index) : nameValueAt index = some (name, value) := by
  obtain ⟨entry, here, matched⟩ := getElem_of_findIdx? found
  obtain ⟨sameName, sameValue⟩ := of_decide_eq_true matched
  rw [nameValueAt, here, Option.map_some, sameName, sameValue]

theorem nameValueAt_findName (found : findName name = some index) :
    ∃ value, nameValueAt index = some (name, value) := by
  obtain ⟨entry, here, matched⟩ := getElem_of_findIdx? found
  refine ⟨ascii entry.2, ?_⟩
  rw [nameValueAt, here, Option.map_some, of_decide_eq_true matched]

/-- A field whose literals are found. -/
def FieldFound (before : Bytes) (field : HeaderField) : Prop :=
  findExact field.1 field.2 = none →
    (∀ index, findName field.1 = some index →
      StringFound (before ++ encodeInteger index 4 0x50) field.2 7 0x00 0x80) ∧
    (findName field.1 = none →
      StringFound before field.1 3 0x20 0x08 ∧
        StringFound (before ++ encodeString field.1 3 0x20 0x08) field.2 7 0x00 0x80)

theorem valuePattern : TellsApart 7 0x00 0x80 := by decide

theorem namePattern : TellsApart 3 0x20 0x08 := by decide

theorem indexedPattern : Leaves 6 0xc0 := by decide

theorem referencePattern : Leaves 4 0x50 := by decide

/-- The three ways to write a field, and how each is told by its first byte. -/
theorem encodeField_cases (field : HeaderField) :
    (∃ index, findExact field.1 field.2 = some index ∧
      nameValueAt index = some field ∧ encodeField field = encodeInteger index 6 0xc0 ∧
      ∃ first rest, encodeField field = first :: rest ∧ ∀ limit decoded,
        decodeField limit decoded first.toNat = decodeIndexed limit decoded) ∨
    (findExact field.1 field.2 = none ∧ ∃ index value, findName field.1 = some index ∧
      nameValueAt index = some (field.1, value) ∧
      encodeField field = encodeInteger index 4 0x50 ++ encodeString field.2 7 0x00 0x80 ∧
      ∃ first rest, encodeField field = first :: rest ∧ ∀ limit decoded,
        decodeField limit decoded first.toNat = decodeNameReference limit decoded) ∨
    (findExact field.1 field.2 = none ∧ findName field.1 = none ∧
      encodeField field =
        encodeString field.1 3 0x20 0x08 ++ encodeString field.2 7 0x00 0x80 ∧
      ∃ first rest, encodeField field = first :: rest ∧ ∀ limit decoded,
        decodeField limit decoded first.toNat = decodeLiteralName limit decoded) := by
  have indexed : ∀ low ≤ 63, (0xc0 ||| low) < 256 ∧ (0xc0 ||| low) &&& 0x80 ≠ 0 ∧
      (0xc0 ||| low) &&& 0x40 ≠ 0 := by decide
  have reference : ∀ low ≤ 15, (0x50 ||| low) < 256 ∧ (0x50 ||| low) &&& 0x80 = 0 ∧
      (0x50 ||| low) &&& 0x40 ≠ 0 ∧ (0x50 ||| low) &&& 0x10 ≠ 0 := by decide
  have named : ∀ low ≤ 7, ∀ pattern ∈ [0x20, 0x28], (pattern ||| low) < 256 ∧
      (pattern ||| low) &&& 0x80 = 0 ∧ (pattern ||| low) &&& 0x40 = 0 ∧
      (pattern ||| low) &&& 0x20 ≠ 0 := by decide
  unfold encodeField
  cases exact : findExact field.1 field.2 with
  | some index =>
    refine .inl ⟨index, rfl, nameValueAt_findExact exact, rfl, ?_⟩
    obtain ⟨low, small, rest, same⟩ := @encodeInteger_head 6 0xc0 index
    obtain ⟨byte, static, indexedLine⟩ := indexed low small
    refine ⟨_, rest, same, fun limit decoded => ?_⟩
    rw [toNat_ofNat_of_lt byte, decodeField, if_pos static, if_neg indexedLine]
  | none =>
    cases sameName : findName field.1 with
    | some index =>
      obtain ⟨value, entry⟩ := nameValueAt_findName sameName
      refine .inr (.inl ⟨rfl, index, value, rfl, entry, rfl, ?_⟩)
      obtain ⟨low, small, rest, same⟩ := @encodeInteger_head 4 0x50 index
      obtain ⟨byte, literalLine, referenceLine, static⟩ := reference low small
      refine ⟨_, _, congrArg (· ++ _) same, fun limit decoded => ?_⟩
      rw [toNat_ofNat_of_lt byte, decodeField, if_neg (not_not_intro literalLine),
        if_pos referenceLine, if_neg static]
    | none =>
      refine .inr (.inr ⟨rfl, rfl, rfl, ?_⟩)
      dsimp only
      rw [encodeString_eq field.1, append_assoc]
      have pattern : (if isHuffman field.1 then 0x20 ||| 0x08 else 0x20) ∈ [0x20, 0x28] := by
        split
        · decide
        · decide
      obtain ⟨low, small, rest, same⟩ := @encodeInteger_head 3
        (if isHuffman field.1 then 0x20 ||| 0x08 else 0x20) ((literal field.1).length % 2 ^ 64)
      obtain ⟨byte, notIndexed, notReference, literalLine⟩ := named low small _ pattern
      refine ⟨_, _, congrArg (· ++ _) same, fun limit decoded => ?_⟩
      rw [toNat_ofNat_of_lt byte, decodeField, if_neg (not_not_intro notIndexed),
        if_neg (not_not_intro notReference), if_pos literalLine]

/-- A field found again is decoded, as long as it fits. -/
theorem decodeField_delivers (limit : Nat)
    (decoded : DecodedFields) (found : FieldFound before field) :
    ∃ first rest, encodeField field = first :: rest ∧
      Delivers (decodeField limit decoded first.toNat) before (encodeField field)
        (decoded.decodedBytes + fieldBytes field ≤ limit) (decoded.append field) := by
  have appended (written : Bytes) := appendField_delivers limit decoded field written
  have weight : fieldBytes field = field.1.length + field.2.length + fieldLineOverhead := rfl
  rcases encodeField_cases field with ⟨index, exact, entry, written, first, rest, head, decodes⟩ |
    ⟨exact, index, value, known, entry, written, first, rest, head, decodes⟩ |
    ⟨exact, known, written, first, rest, head, decodes⟩
  · refine ⟨first, rest, head, ?_⟩
    have read := decodeInteger_yields before indexedPattern (index_lt_of_nameValueAt entry)
    rw [decodes, written, ← append_nil (encodeInteger index 6 0xc0)]
    refine .after read ?_
    rw [entry]
    exact appended _
  · refine ⟨first, rest, head, ?_⟩
    have read := decodeInteger_yields before referencePattern (index_lt_of_nameValueAt entry)
    have valueFound := (found exact).1 index known
    rw [decodes, written]
    refine .after read ?_
    rw [entry, ← append_nil (encodeString field.2 7 0x00 0x80)]
    refine (decodeString_delivers _ valuePattern valueFound).bind (appended _) fun fits => ?_
    rw [remainingBytes_eq]
    omega
  · refine ⟨first, rest, head, ?_⟩
    obtain ⟨nameFound, valueFound⟩ := (found exact).2 known
    rw [decodes, written]
    have second : Delivers
        (decodeString 7 0x80 (remainingBytes limit decoded.decodedBytes field.1.length) >>=
          fun value => appendField limit decoded (field.1, value))
        (before ++ encodeString field.1 3 0x20 0x08) (encodeString field.2 7 0x00 0x80 ++ [])
        (decoded.decodedBytes + fieldBytes field ≤ limit) (decoded.append field) := by
      refine (decodeString_delivers _ valuePattern valueFound).bind (appended _) fun fits => ?_
      rw [remainingBytes_eq]
      omega
    rw [append_nil] at second
    refine (decodeString_delivers _ namePattern nameFound).bind second fun fits => ?_
    rw [remainingBytes_eq]
    omega

theorem fieldFound_of_decodeField {rest after : Bytes} {first : UInt8} {result : DecodedFields}
    (head : encodeField field = first :: rest)
    (read : decodeField limit decoded first.toNat (before ++ (encodeField field ++ after))
      before.length = .ok (result, next))
    (same : result.out = decoded.out ++ [field]) :
    FieldFound before field ∧ next = (before ++ encodeField field).length := by
  rcases encodeField_cases field with ⟨index, exact, entry, written, other, tail, here, decodes⟩ |
    ⟨exact, index, value, known, entry, written, other, tail, here, decodes⟩ |
    ⟨exact, known, written, other, tail, here, decodes⟩
  · obtain ⟨rfl, -⟩ := List.cons.inj (head.symm.trans here)
    have integer := decodeInteger_yields before indexedPattern (index_lt_of_nameValueAt entry) after
    rw [decodes, written, decodeIndexed, Cursor.bind_eq_ok] at read
    obtain ⟨_, _, got, read⟩ := read
    cases integer.symm.trans got
    rw [entry] at read
    obtain ⟨-, rfl⟩ := appendField_ok read same
    refine ⟨fun absent => ?_, by rw [written]⟩
    cases exact.symm.trans absent
  · obtain ⟨rfl, -⟩ := List.cons.inj (head.symm.trans here)
    have integer := decodeInteger_yields before referencePattern (index_lt_of_nameValueAt entry)
      (encodeString field.2 7 0x00 0x80 ++ after)
    rw [decodes, written, decodeNameReference, Cursor.bind_eq_ok, append_assoc] at read
    obtain ⟨_, _, got, read⟩ := read
    cases integer.symm.trans got
    rw [entry] at read
    dsimp only at read
    rw [Cursor.bind_eq_ok] at read
    obtain ⟨str, reached, gotValue, read⟩ := read
    obtain ⟨equal, rfl⟩ := appendField_ok read same
    obtain rfl : str = field.2 := congrArg Prod.snd equal
    rw [← append_assoc before] at gotValue
    obtain ⟨valueFound, rfl⟩ := stringFound_of_decodeString valuePattern gotValue
    refine ⟨fun _ => ⟨fun other found => ?_, fun absent => ?_⟩, by rw [written, append_assoc]⟩
    · cases known.symm.trans found
      exact valueFound
    · cases known.symm.trans absent
  · obtain ⟨rfl, -⟩ := List.cons.inj (head.symm.trans here)
    rw [decodes, written, decodeLiteralName, Cursor.bind_eq_ok, append_assoc] at read
    obtain ⟨name, middle, gotName, read⟩ := read
    rw [Cursor.bind_eq_ok] at read
    obtain ⟨str, reached, gotValue, read⟩ := read
    obtain ⟨equal, rfl⟩ := appendField_ok read same
    obtain rfl : name = field.1 := congrArg Prod.fst equal
    obtain rfl : str = field.2 := congrArg Prod.snd equal
    obtain ⟨nameFound, rfl⟩ := stringFound_of_decodeString namePattern gotName
    rw [← append_assoc before] at gotValue
    obtain ⟨valueFound, rfl⟩ := stringFound_of_decodeString valuePattern gotValue
    refine ⟨fun _ => ⟨fun other found => ?_, fun _ => ⟨nameFound, valueFound⟩⟩,
      by rw [written, append_assoc]⟩
    cases known.symm.trans found

def fieldSectionBytes (headers : List HeaderField) : Nat := (headers.map fieldBytes).sum

/-- Every field is found after those before it. -/
def FoundFrom : Bytes → List HeaderField → Prop
  | _, [] => True
  | before, field :: rest => FieldFound before field ∧ FoundFrom (before ++ encodeField field) rest

def Findable (headers : List HeaderField) : Prop := FoundFrom [0x00, 0x00] headers

theorem decodeSectionPrefix_at (lines : Bytes) :
    decodeSectionPrefix ([0x00, 0x00] ++ lines) 0 = .ok ((), 2) := by
  have wide : Leaves 8 0 := by
    refine ⟨by decide, fun low small => ?_⟩
    have bound : maxPrefix 8 = 2 ^ 8 - 1 := rfl
    rw [bound] at small ⊢
    rw [Nat.zero_or, Nat.and_two_pow_sub_one_eq_mod, Nat.mod_eq_of_lt (by omega)]
    exact ⟨by omega, rfl⟩
  have insertCount := decodeInteger_yields [] wide (by decide : 0 < 2 ^ 64) (0x00 :: lines)
  have base := decodeInteger_yields [0x00] valuePattern.1 (by decide : 0 < 2 ^ 64) lines
  have first : encodeInteger 0 8 0 = [0x00] := by decide
  have second : encodeInteger 0 7 0 = [0x00] := by decide
  rw [first] at insertCount
  rw [second] at base
  unfold decodeSectionPrefix
  rw [Cursor.bind_eq_ok]
  refine ⟨0, 1, insertCount, ?_⟩
  rw [if_neg (not_not_intro rfl), Cursor.bind_eq_ok]
  refine ⟨0, 2, base, ?_⟩
  rw [if_neg (not_not_intro rfl)]
  rfl

theorem decodeFields_end (decoded : DecodedFields) :
    decodeFields maxFieldCount limit input fuel decoded input.length = .ok decoded.out := by
  cases fuel with
  | zero => rw [decodeFields, if_pos le_rfl]
  | succ fuel => rw [decodeFields, if_pos le_rfl]

/-- The loop reads a section whose fields are found, as far as they fit. -/
theorem decodeFields_delivers {maxFieldCount limit fuel : Nat} {before : Bytes}
    {headers : List HeaderField} {decoded : DecodedFields} (found : FoundFrom before headers)
    (enough : (headers.flatMap encodeField).length ≤ fuel)
    (count : maxFieldCount = 0 ∨ decoded.out.length + headers.length ≤ maxFieldCount) :
    (decoded.decodedBytes + fieldSectionBytes headers ≤ limit →
      decodeFields maxFieldCount limit (before ++ headers.flatMap encodeField) fuel decoded
        before.length = .ok (decoded.out ++ headers)) ∧
    (decoded.decodedBytes ≤ limit → limit < decoded.decodedBytes + fieldSectionBytes headers →
      ∃ failure, IsSizeLimit failure ∧
        decodeFields maxFieldCount limit (before ++ headers.flatMap encodeField) fuel decoded
          before.length = .error failure) := by
  induction headers generalizing before fuel decoded with
  | nil =>
    rw [flatMap_nil, append_nil, decodeFields_end, append_nil]
    have absent : fieldSectionBytes [] = 0 := rfl
    exact ⟨fun _ => rfl, fun fits exceeds => absurd exceeds (by rw [absent]; omega)⟩
  | cons field headers ih =>
    obtain ⟨here, later⟩ := found
    obtain ⟨first, rest, head, delivers⟩ := decodeField_delivers limit decoded here
    have total : fieldSectionBytes (field :: headers) =
        fieldBytes field + fieldSectionBytes headers := rfl
    have written : 0 < (encodeField field).length := by
      rw [head]
      exact Nat.succ_pos _
    rw [flatMap_cons, length_append] at enough
    obtain ⟨fuel, rfl⟩ := Nat.exists_eq_add_of_le' (show 1 ≤ fuel by omega)
    have counted : ¬(0 < maxFieldCount ∧ maxFieldCount ≤ decoded.out.length) := by
      rw [length_cons] at count
      omega
    have peeked : (before ++ (encodeField field ++ headers.flatMap encodeField))[before.length]? =
        some first := by
      rw [getElem?_append_right le_rfl, Nat.sub_self, head]
      rfl
    have inside : ¬(before ++ (encodeField field ++ headers.flatMap encodeField)).length ≤
        before.length := by
      rw [length_append, length_append]
      omega
    rw [flatMap_cons, decodeFields, if_neg inside, if_neg counted, peeked, total]
    dsimp only
    by_cases fits : decoded.decodedBytes + fieldBytes field ≤ limit
    · rw [delivers.given fits]
      have after := @ih fuel (before ++ encodeField field) (decoded.append field) later (by omega)
        (by
          rw [length_cons] at count
          rw [DecodedFields.append, length_append, length_singleton]
          omega)
      rw [append_assoc] at after
      change (_ → decodeFields _ _ _ _ (decoded.append field) (before ++ encodeField field).length =
        _) ∧ (_ → _ → ∃ failure, _ ∧ decodeFields _ _ _ _ (decoded.append field)
          (before ++ encodeField field).length = _)
      have outcome : (decoded.append field).out ++ headers = decoded.out ++ field :: headers := by
        rw [DecodedFields.append, append_assoc, singleton_append]
      rw [outcome] at after
      have bytes : (decoded.append field).decodedBytes =
          decoded.decodedBytes + fieldBytes field := rfl
      rw [bytes, Nat.add_assoc] at after
      exact ⟨after.1, fun _ => after.2 fits⟩
    · obtain ⟨failure, limited, refused⟩ := delivers.refused fits
      rw [refused]
      exact ⟨fun all => absurd all (by omega), fun _ _ => ⟨failure, limited, rfl⟩⟩

theorem decodeField_out (read : decodeField limit decoded first input offset = .ok (result, next)) :
    ∃ field, result.out = decoded.out ++ [field] := by
  have appended {field : HeaderField} {offset : Nat}
      (read : appendField limit decoded field input offset = .ok (result, next)) :
      ∃ field, result.out = decoded.out ++ [field] := by
    rw [appendField_eq] at read
    split at read
    · cases read
      exact ⟨field, rfl⟩
    · cases read
  unfold decodeField at read
  split at read
  · split at read
    · cases read
    rw [decodeIndexed, Cursor.bind_eq_ok] at read
    obtain ⟨index, middle, -, read⟩ := read
    cases entry : nameValueAt index with
    | none =>
      rw [entry] at read
      cases read
    | some field =>
      rw [entry] at read
      exact appended read
  split at read
  · split at read
    · cases read
    rw [decodeNameReference, Cursor.bind_eq_ok] at read
    obtain ⟨index, middle, -, read⟩ := read
    cases entry : nameValueAt index with
    | none =>
      rw [entry] at read
      cases read
    | some field =>
      rw [entry] at read
      dsimp only at read
      rw [Cursor.bind_eq_ok] at read
      obtain ⟨value, reached, -, read⟩ := read
      exact appended read
  split at read
  · rw [decodeLiteralName, Cursor.bind_eq_ok] at read
    obtain ⟨name, middle, -, read⟩ := read
    rw [Cursor.bind_eq_ok] at read
    obtain ⟨value, reached, -, read⟩ := read
    exact appended read
  · cases read

theorem decodeFields_prefix
    (read : decodeFields maxFieldCount limit input fuel decoded offset = .ok result) :
    decoded.out <+: result := by
  induction fuel generalizing decoded offset with
  | zero =>
    rw [decodeFields] at read
    split at read
    · cases read
      exact prefix_rfl
    · cases read
  | succ fuel ih =>
    rw [decodeFields] at read
    split at read
    · cases read
      exact prefix_rfl
    split at read
    · cases read
    split at read
    · cases read
    rename_i first _
    cases step : decodeField limit decoded first.toNat input offset with
    | error failure =>
      rw [step] at read
      cases read
    | ok next =>
      rw [step] at read
      obtain ⟨field, out⟩ := decodeField_out step
      exact (out ▸ prefix_append _ _ : decoded.out <+: next.1.out).trans (ih read)

theorem foundFrom_of_decodeFields
    (read : decodeFields maxFieldCount limit (before ++ headers.flatMap encodeField) fuel decoded
      before.length = .ok (decoded.out ++ headers)) : FoundFrom before headers := by
  induction headers generalizing before fuel decoded with
  | nil => exact trivial
  | cons field headers ih =>
    obtain ⟨first, rest, head⟩ : ∃ first rest, encodeField field = first :: rest := by
      rcases encodeField_cases field with ⟨_, _, _, _, first, rest, head, _⟩ |
        ⟨_, _, _, _, _, _, first, rest, head, _⟩ | ⟨_, _, _, first, rest, head, _⟩
      · exact ⟨first, rest, head⟩
      · exact ⟨first, rest, head⟩
      · exact ⟨first, rest, head⟩
    have peeked : (before ++ (encodeField field ++ headers.flatMap encodeField))[before.length]? =
        some first := by
      rw [getElem?_append_right le_rfl, Nat.sub_self, head]
      rfl
    have inside : ¬(before ++ (encodeField field ++ headers.flatMap encodeField)).length ≤
        before.length := by
      rw [length_append, length_append, head, length_cons]
      omega
    rw [flatMap_cons] at read
    cases fuel with
    | zero =>
      rw [decodeFields, if_neg inside] at read
      cases read
    | succ fuel =>
      rw [decodeFields, if_neg inside] at read
      split at read
      · cases read
      rw [peeked] at read
      dsimp only at read
      cases step : decodeField limit decoded first.toNat
        (before ++ (encodeField field ++ headers.flatMap encodeField)) before.length with
      | error failure =>
        rw [step] at read
        cases read
      | ok next =>
        obtain ⟨result, reached⟩ := next
        rw [step] at read
        dsimp only at read
        obtain ⟨other, out⟩ := decodeField_out step
        have begins := decodeFields_prefix read
        rw [out, prefix_append_right_inj] at begins
        obtain rfl : other = field := (cons_prefix_cons.mp begins).1
        obtain ⟨found, rfl⟩ := fieldFound_of_decodeField head step out
        refine ⟨found, @ih fuel _ result ?_⟩
        rw [append_assoc, out, append_assoc, singleton_append]
        exact read

theorem decodeFieldSection_eq (headers : List HeaderField) (maxFieldCount maxDecodedBytes : Nat) :
    decodeFieldSection (encodeFieldSection headers) maxFieldCount maxDecodedBytes =
      decodeFields maxFieldCount (decodedLimit maxDecodedBytes)
        ([0x00, 0x00] ++ headers.flatMap encodeField) (encodeFieldSection headers).length
        { out := [], decodedBytes := 0 } 2 := by
  rw [decodeFieldSection, encodeFieldSection, decodeSectionPrefix_at]

/-- The fields come back within every limit, and a section is refused for its size exactly where
they exceed it. -/
def RoundTrips (headers : List HeaderField) : Prop :=
  ∀ maxFieldCount maxDecodedBytes, maxFieldCount = 0 ∨ headers.length ≤ maxFieldCount →
    (fieldSectionBytes headers ≤ decodedLimit maxDecodedBytes →
      decodeFieldSection (encodeFieldSection headers) maxFieldCount maxDecodedBytes =
        .ok headers) ∧
    ((∃ failure, IsSizeLimit failure ∧
      decodeFieldSection (encodeFieldSection headers) maxFieldCount maxDecodedBytes =
        .error failure) ↔ decodedLimit maxDecodedBytes < fieldSectionBytes headers)

theorem roundTrips_of_findable (found : Findable headers) : RoundTrips headers := by
  intro maxFieldCount maxDecodedBytes count
  have enough : (headers.flatMap encodeField).length ≤ (encodeFieldSection headers).length := by
    rw [encodeFieldSection, length_append]
    omega
  have counted : maxFieldCount = 0 ∨
      (DecodedFields.mk [] 0).out.length + headers.length ≤ maxFieldCount := by
    rwa [length_nil, Nat.zero_add]
  have loop := @decodeFields_delivers maxFieldCount (decodedLimit maxDecodedBytes) _ _ _ _ found
    enough counted
  rw [Nat.zero_add, nil_append] at loop
  rw [decodeFieldSection_eq]
  refine ⟨loop.1, fun refused => ?_, loop.2 (Nat.zero_le _)⟩
  by_contra fits
  obtain ⟨failure, -, same⟩ := refused
  cases (loop.1 (not_lt.mp fits)).symm.trans same

theorem findable_of_decoded {maxDecodedBytes : Nat}
    (read : decodeFieldSection (encodeFieldSection headers) maxFieldCount maxDecodedBytes =
      .ok headers) : Findable headers := by
  rw [decodeFieldSection_eq] at read
  exact foundFrom_of_decodeFields read

theorem stringFound_of_short
    (short : (before ++ encodeString str prefixBits basePattern hBit).length ≤ maxInt) :
    StringFound before str prefixBits basePattern hBit := by
  rw [encodeString_eq] at short
  simp only [length_append] at short
  refine ⟨by omega, .inl ?_⟩
  rw [length_append]
  omega

/-- No cast goes wrong in a section that an `int` can index. -/
theorem foundFrom_of_short (short : (before ++ headers.flatMap encodeField).length ≤ maxInt) :
    FoundFrom before headers := by
  induction headers generalizing before with
  | nil => trivial
  | cons field headers ih =>
    rw [flatMap_cons, ← append_assoc] at short
    refine ⟨fun exact => ?_, ih short⟩
    rw [length_append] at short
    have here := Nat.le_of_add_right_le short
    unfold encodeField at here
    rw [exact] at here
    constructor
    · intro index known
      rw [known] at here
      dsimp only at here
      rw [← append_assoc] at here
      exact stringFound_of_short here
    · intro known
      rw [known] at here
      dsimp only at here
      rw [← append_assoc] at here
      refine ⟨stringFound_of_short ?_, stringFound_of_short here⟩
      rw [length_append] at here
      exact Nat.le_of_add_right_le here

/-- A section comes back within every limit exactly when the decoder's casts find each of its
literals, as they do in every section that an `int` can index. -/
theorem fieldSection_roundTrip_iff (headers : List HeaderField) :
    (RoundTrips headers ↔ Findable headers) ∧
    ((encodeFieldSection headers).length ≤ maxInt → Findable headers) := by
  refine ⟨⟨fun roundTrips => ?_, roundTrips_of_findable⟩, foundFrom_of_short⟩
  have large : fieldSectionBytes headers ≤ decodedLimit (fieldSectionBytes headers) := by
    unfold decodedLimit
    split
    · omega
    · exact le_rfl
  exact findable_of_decoded ((roundTrips 0 (fieldSectionBytes headers) (.inl rfl)).1 large)

theorem length_huffmanSpell_zeros (count : Nat) :
    (huffmanSpell (List.replicate count 0)).length = 13 * count := by
  induction count with
  | zero => rfl
  | succ count ih =>
    have word : (huffman.word (symbolOf 0)).length = 13 := by decide
    unfold huffmanSpell at ih ⊢
    rw [replicate_succ, map_cons, PrefixCode.spell_cons, length_append, ih, word]
    omega

theorem isHuffman_zeros (count : Nat) : isHuffman (List.replicate count 0) = false := by
  obtain ⟨pad, -, written⟩ := huffmanEncode_bits (List.replicate count 0)
  have lengths := congrArg List.length written
  rw [length_flatMap_byteBits, length_append, length_huffmanSpell_zeros] at lengths
  unfold isHuffman
  rw [length_replicate]
  exact decide_eq_false (by omega)

theorem findExact_of_findName (value : Bytes) (unknown : findName name = none) :
    findExact name value = none := by
  refine findIdx?_eq_none_iff.mpr fun entry member => ?_
  have other := findIdx?_eq_none_iff.mp unknown entry member
  exact decide_eq_false fun same => of_decide_eq_false other same.1

theorem findName_byte (byte : UInt8) : findName [byte] = none := by
  have long : staticTable.all (fun entry => entry.1.toList.length != 1) = true := by
    decide +kernel
  refine findIdx?_eq_none_iff.mpr fun entry member => decide_eq_false fun same => ?_
  have length := congrArg List.length same
  rw [ascii, length_map] at length
  exact bne_iff_ne.mp (all_eq_true.mp long entry member) length.symm

theorem castPosition_far {position : Nat} (far : maxInt < position) (below : position < 2 ^ 32) :
    castPosition position = 0 := by
  have bound : maxInt = 2147483647 := rfl
  have negative : toInt position < 0 := by
    unfold toInt
    rw [Int.bmod_def]
    split
    · omega
    · omega
  rw [castPosition, sanitizePosition, if_pos negative]

theorem length_encodeField_zeros {count : Nat} (size : count = maxInt) :
    (encodeField ([0x61], List.replicate count 0)).length = count + 8 := by
  have unknown := findName_byte 0x61
  have name : (encodeString [0x61] 3 0x20 0x08).length = 2 := by decide
  have header : (encodeInteger (maxInt % 2 ^ 64) 7 0x00).length = 6 := by decide
  unfold encodeField
  rw [findExact_of_findName _ unknown, unknown]
  dsimp only
  rw [length_append, name, encodeString_eq, length_append, stringHeader, literal,
    isHuffman_zeros, if_neg (by decide), if_neg (by decide), length_replicate, size, header]
  omega

/-- After a value of 2^31 - 1 zero bytes the next name is read from the start of the section. -/
theorem roundTrip_fails_of_size : ¬∀ headers, RoundTrips headers := by
  intro roundTrips
  obtain ⟨count, size⟩ : ∃ count, count = maxInt := ⟨_, rfl⟩
  have read := (roundTrips [([0x61], List.replicate count 0), ([0x62], [0x01])] 0
    (fieldSectionBytes [([0x61], List.replicate count 0), ([0x62], [0x01])]) (.inl rfl)).1
    (by
      unfold decodedLimit
      split
      · omega
      · exact le_rfl)
  have unknown := findName_byte 0x62
  have header : stringHeader [0x62] 3 0x20 0x08 = [0x21] := by decide
  have raw : literal [0x62] = [0x62] := by decide
  have length := length_encodeField_zeros size
  have bound : maxInt = 2147483647 := rfl
  obtain ⟨-, found, -⟩ := findable_of_decoded read
  obtain ⟨⟨-, near | same⟩, -⟩ := (found (findExact_of_findName _ unknown)).2 unknown
  · rw [header, length_append, length_append, length, size] at near
    simp only [length_cons, length_nil] at near
    omega
  · rw [castPosition_far, raw] at same
    · simp at same
    · rw [header, length_append, length_append, length, size]
      simp only [length_cons, length_nil]
      omega
    · rw [header, length_append, length_append, length, size]
      simp only [length_cons, length_nil]
      omega

end SwStack.Http3
