import SwStack.Lib.Reader

/-! The check of the text of a message. It classifies the first byte of a sequence by its high
bits and bounds the code point from both sides, so what passes is exactly what the characters of
Unicode are encoded as. -/
namespace SwStack.WebSocket

open SwStack.Lib List

def isContinuation (byte : UInt8) : Bool := byte &&& 0xc0 = 0x80

def codePoint2 (c c1 : UInt8) : Nat := (c.toNat &&& 0x1f) <<< 6 ||| (c1.toNat &&& 0x3f)

def codePoint3 (c c1 c2 : UInt8) : Nat :=
  (c.toNat &&& 0x0f) <<< 12 ||| (c1.toNat &&& 0x3f) <<< 6 ||| (c2.toNat &&& 0x3f)

def codePoint4 (c c1 c2 c3 : UInt8) : Nat :=
  (c.toNat &&& 0x07) <<< 18 ||| (c1.toNat &&& 0x3f) <<< 12 ||| (c2.toNat &&& 0x3f) <<< 6 |||
    (c3.toNat &&& 0x3f)

/-- The loop over the bytes that are left. -/
def isValidUtf8 : Bytes → Bool
  | [] => true
  | c :: rest =>
    if c ≤ 0x7f then isValidUtf8 rest
    else if c &&& 0xe0 = 0xc0 then
      match rest with
      | c1 :: rest =>
        if ¬ isContinuation c1 then false
        else if codePoint2 c c1 < 0x80 then false
        else isValidUtf8 rest
      | _ => false
    else if c &&& 0xf0 = 0xe0 then
      match rest with
      | c1 :: c2 :: rest =>
        if ¬ isContinuation c1 ∨ ¬ isContinuation c2 then false
        else if codePoint3 c c1 c2 < 0x800 then false
        else if 0xd800 ≤ codePoint3 c c1 c2 ∧ codePoint3 c c1 c2 ≤ 0xdfff then false
        else isValidUtf8 rest
      | _ => false
    else if c &&& 0xf8 = 0xf0 then
      match rest with
      | c1 :: c2 :: c3 :: rest =>
        if ¬ isContinuation c1 ∨ ¬ isContinuation c2 ∨ ¬ isContinuation c3 then false
        else if codePoint4 c c1 c2 c3 < 0x10000 then false
        else if 0x10ffff < codePoint4 c c1 c2 c3 then false
        else isValidUtf8 rest
      | _ => false
    else false

theorem isContinuation_iff :
    ∀ byte : UInt8, isContinuation byte = true ↔ 0x80 ≤ byte.toNat ∧ byte.toNat < 0xc0 :=
  forall_byte (by decide +kernel)

theorem two_iff :
    ∀ byte : UInt8, byte &&& 0xe0 = 0xc0 ↔ 0xc0 ≤ byte.toNat ∧ byte.toNat < 0xe0 :=
  forall_byte (by decide +kernel)

theorem three_iff :
    ∀ byte : UInt8, byte &&& 0xf0 = 0xe0 ↔ 0xe0 ≤ byte.toNat ∧ byte.toNat < 0xf0 :=
  forall_byte (by decide +kernel)

theorem four_iff :
    ∀ byte : UInt8, byte &&& 0xf8 = 0xf0 ↔ 0xf0 ≤ byte.toNat ∧ byte.toNat < 0xf8 :=
  forall_byte (by decide +kernel)

theorem shift_or (high low : Nat) :
    high <<< 6 ||| (low &&& 0x3f) = high * 64 + low % 64 := by
  have small : low &&& 0x3f < 2 ^ 6 := Nat.and_lt_two_pow low (by decide)
  rw [← Nat.shiftLeft_add_eq_or_of_lt small, Nat.shiftLeft_eq, Nat.and_two_pow_sub_one_eq_mod low 6]

theorem codePoint2_eq (c c1 : UInt8) :
    codePoint2 c c1 = c.toNat % 32 * 64 + c1.toNat % 64 := by
  rw [codePoint2, shift_or, Nat.and_two_pow_sub_one_eq_mod c.toNat 5]

theorem codePoint3_eq (c c1 c2 : UInt8) :
    codePoint3 c c1 c2 = (c.toNat % 16 * 64 + c1.toNat % 64) * 64 + c2.toNat % 64 := by
  have split : (c.toNat &&& 0x0f) <<< 12 ||| (c1.toNat &&& 0x3f) <<< 6 =
      ((c.toNat &&& 0x0f) <<< 6 ||| (c1.toNat &&& 0x3f)) <<< 6 := by
    rw [Nat.shiftLeft_or_distrib, ← Nat.shiftLeft_add]
  rw [codePoint3, split, shift_or, shift_or, Nat.and_two_pow_sub_one_eq_mod c.toNat 4]

theorem codePoint4_eq (c c1 c2 c3 : UInt8) :
    codePoint4 c c1 c2 c3 =
      ((c.toNat % 8 * 64 + c1.toNat % 64) * 64 + c2.toNat % 64) * 64 + c3.toNat % 64 := by
  have split : (c.toNat &&& 0x07) <<< 18 ||| (c1.toNat &&& 0x3f) <<< 12 |||
      (c2.toNat &&& 0x3f) <<< 6 =
        (((c.toNat &&& 0x07) <<< 6 ||| (c1.toNat &&& 0x3f)) <<< 6 |||
          (c2.toNat &&& 0x3f)) <<< 6 := by
    rw [Nat.shiftLeft_or_distrib, Nat.shiftLeft_or_distrib, Nat.shiftLeft_or_distrib,
      ← Nat.shiftLeft_add, ← Nat.shiftLeft_add, ← Nat.shiftLeft_add]
  rw [codePoint4, split, shift_or, shift_or, shift_or, Nat.and_two_pow_sub_one_eq_mod c.toNat 3]

/-- Text in UTF-8: the characters of Unicode one after another, each as it is encoded. -/
def WellFormed (bytes : Bytes) : Prop :=
  ∃ characters : List Char, bytes = characters.flatMap String.utf8EncodeChar

theorem wellFormed_nil : WellFormed [] := ⟨[], rfl⟩

variable {rest : Bytes}

theorem wellFormed_append (character : Char) (formed : WellFormed rest) :
    WellFormed (String.utf8EncodeChar character ++ rest) := by
  obtain ⟨characters, rfl⟩ := formed
  exact ⟨character :: characters, rfl⟩

variable {c : UInt8}

theorem wellFormed_cons (formed : WellFormed (c :: rest)) :
    ∃ character tail, c :: rest = String.utf8EncodeChar character ++ tail ∧ WellFormed tail := by
  obtain ⟨characters, same⟩ := formed
  cases characters with
  | nil => cases same
  | cons character others => exact ⟨character, _, same, others, rfl⟩

/-- The four lengths of a sequence, and the code points of each. -/
inductive Encodes : Nat → Bytes → Prop where
  | one {point : Nat} : point < 0x80 → Encodes point [UInt8.ofNat point]
  | two {point : Nat} : 0x80 ≤ point → point < 0x800 →
      Encodes point [UInt8.ofNat (point / 64 + 0xc0), UInt8.ofNat (point % 64 + 0x80)]
  | three {point : Nat} : 0x800 ≤ point → point < 0x10000 →
      Encodes point [UInt8.ofNat (point / 4096 + 0xe0), UInt8.ofNat (point / 64 % 64 + 0x80),
        UInt8.ofNat (point % 64 + 0x80)]
  | four {point : Nat} : 0x10000 ≤ point → point < 0x110000 →
      Encodes point [UInt8.ofNat (point / 262144 + 0xf0), UInt8.ofNat (point / 4096 % 64 + 0x80),
        UInt8.ofNat (point / 64 % 64 + 0x80), UInt8.ofNat (point % 64 + 0x80)]

theorem encodes_character (character : Char) :
    Encodes character.val.toNat (String.utf8EncodeChar character) := by
  have valid := character.valid
  simp only [UInt32.isValidChar, Nat.isValidChar] at valid
  unfold String.utf8EncodeChar
  dsimp only
  generalize character.val.toNat = point at valid
  split
  · exact .one (by omega)
  · split
    · rw [Nat.mod_eq_of_lt (by omega : point / 64 < 32)]
      exact .two (by omega) (by omega)
    · split
      · rw [Nat.mod_eq_of_lt (by omega : point / 4096 < 16)]
        exact .three (by omega) (by omega)
      · rw [Nat.mod_eq_of_lt (by omega : point / 262144 < 8)]
        exact .four (by omega) (by omega)

theorem Encodes.unique (first : Encodes point left)
    (second : Encodes point right) : left = right := by
  cases first <;> cases second <;> first | rfl | omega

theorem wellFormed_encodes (encodes : Encodes point bytes)
    (character : point < 0xd800 ∨ 0xdfff < point) (formed : WellFormed rest) :
    WellFormed (bytes ++ rest) := by
  have valid : Nat.isValidChar point := by
    have bound : point < 0x110000 := by cases encodes <;> omega
    rw [Nat.isValidChar]
    omega
  have value : (Char.ofNatAux point valid).val.toNat = point := by
    rw [Char.ofNatAux]
    exact UInt32.toNat_ofNatLT ..
  have encoded := encodes_character (Char.ofNatAux point valid)
  rw [value] at encoded
  rw [encodes.unique encoded]
  exact wellFormed_append _ formed

theorem wellFormed_first (formed : WellFormed (c :: rest)) :
    ∃ point bytes tail, c :: rest = bytes ++ tail ∧ Encodes point bytes ∧
      (point < 0xd800 ∨ 0xdfff < point) ∧ WellFormed tail := by
  obtain ⟨character, tail, same, later⟩ := wellFormed_cons formed
  refine ⟨_, _, tail, same, encodes_character character, ?_, later⟩
  have valid := character.valid
  simp only [UInt32.isValidChar, Nat.isValidChar] at valid
  omega

theorem ofNat_eq (same : byte.toNat = value) : UInt8.ofNat value = byte := by
  rw [← same, UInt8.ofNat_toNat]

theorem wellFormed_one (lead : c.toNat < 0x80) : WellFormed (c :: rest) ↔ WellFormed rest := by
  constructor
  · intro formed
    obtain ⟨point, bytes, tail, same, encodes, -, later⟩ := wellFormed_first formed
    cases encodes <;>
      simp only [cons_append, nil_append, List.cons.injEq] at same <;>
      obtain ⟨rfl, rfl⟩ := same <;>
      rw [UInt8.toNat_ofNat'] at lead
    · exact later
    · omega
    · omega
    · omega
  · intro later
    have encodes : Encodes c.toNat _ := .one lead
    rw [ofNat_eq rfl] at encodes
    exact wellFormed_encodes encodes (by omega) later

theorem wellFormed_two (lead : 0xc0 ≤ c.toNat ∧ c.toNat < 0xe0) :
    WellFormed (c :: rest) ↔ ∃ c1 tail, rest = c1 :: tail ∧ isContinuation c1 = true ∧
      0x80 ≤ codePoint2 c c1 ∧ WellFormed tail := by
  constructor
  · intro formed
    obtain ⟨point, bytes, tail, same, encodes, -, later⟩ := wellFormed_first formed
    cases encodes <;>
      simp only [cons_append, nil_append, List.cons.injEq] at same <;>
      obtain ⟨rfl, rfl⟩ := same <;>
      rw [UInt8.toNat_ofNat'] at lead
    · omega
    · refine ⟨_, _, rfl, ?_, ?_, later⟩
      · rw [isContinuation_iff, UInt8.toNat_ofNat']
        omega
      · rw [codePoint2_eq, UInt8.toNat_ofNat', UInt8.toNat_ofNat']
        omega
    · omega
    · omega
  · rintro ⟨c1, tail, rfl, continued, lower, later⟩
    rw [isContinuation_iff] at continued
    rw [codePoint2_eq] at lower
    have encodes : Encodes (c.toNat % 32 * 64 + c1.toNat % 64) _ := .two lower (by omega)
    rw [ofNat_eq (by omega : c.toNat = _), ofNat_eq (by omega : c1.toNat = _)] at encodes
    exact wellFormed_encodes encodes (by omega) later

theorem wellFormed_three (lead : 0xe0 ≤ c.toNat ∧ c.toNat < 0xf0) :
    WellFormed (c :: rest) ↔ ∃ c1 c2 tail, rest = c1 :: c2 :: tail ∧
      (isContinuation c1 = true ∧ isContinuation c2 = true) ∧ 0x800 ≤ codePoint3 c c1 c2 ∧
        (codePoint3 c c1 c2 < 0xd800 ∨ 0xdfff < codePoint3 c c1 c2) ∧ WellFormed tail := by
  constructor
  · intro formed
    obtain ⟨point, bytes, tail, same, encodes, character, later⟩ := wellFormed_first formed
    cases encodes <;>
      simp only [cons_append, nil_append, List.cons.injEq] at same <;>
      obtain ⟨rfl, rfl⟩ := same <;>
      rw [UInt8.toNat_ofNat'] at lead
    · omega
    · omega
    · refine ⟨_, _, _, rfl, ⟨?_, ?_⟩, ?_, ?_, later⟩
      · rw [isContinuation_iff, UInt8.toNat_ofNat']
        omega
      · rw [isContinuation_iff, UInt8.toNat_ofNat']
        omega
      · rw [codePoint3_eq, UInt8.toNat_ofNat', UInt8.toNat_ofNat', UInt8.toNat_ofNat']
        omega
      · rw [codePoint3_eq, UInt8.toNat_ofNat', UInt8.toNat_ofNat', UInt8.toNat_ofNat']
        omega
    · omega
  · rintro ⟨c1, c2, tail, rfl, ⟨first, second⟩, lower, character, later⟩
    rw [isContinuation_iff] at first second
    rw [codePoint3_eq] at lower character
    have encodes : Encodes ((c.toNat % 16 * 64 + c1.toNat % 64) * 64 + c2.toNat % 64) _ :=
      .three lower (by omega)
    rw [ofNat_eq (by omega : c.toNat = _), ofNat_eq (by omega : c1.toNat = _),
      ofNat_eq (by omega : c2.toNat = _)] at encodes
    exact wellFormed_encodes encodes character later

theorem wellFormed_four (lead : 0xf0 ≤ c.toNat ∧ c.toNat < 0xf8) :
    WellFormed (c :: rest) ↔ ∃ c1 c2 c3 tail, rest = c1 :: c2 :: c3 :: tail ∧
      (isContinuation c1 = true ∧ isContinuation c2 = true ∧ isContinuation c3 = true) ∧
        0x10000 ≤ codePoint4 c c1 c2 c3 ∧ codePoint4 c c1 c2 c3 ≤ 0x10ffff ∧
          WellFormed tail := by
  constructor
  · intro formed
    obtain ⟨point, bytes, tail, same, encodes, -, later⟩ := wellFormed_first formed
    cases encodes <;>
      simp only [cons_append, nil_append, List.cons.injEq] at same <;>
      obtain ⟨rfl, rfl⟩ := same <;>
      rw [UInt8.toNat_ofNat'] at lead
    · omega
    · omega
    · omega
    · refine ⟨_, _, _, _, rfl, ⟨?_, ?_, ?_⟩, ?_, ?_, later⟩
      · rw [isContinuation_iff, UInt8.toNat_ofNat']
        omega
      · rw [isContinuation_iff, UInt8.toNat_ofNat']
        omega
      · rw [isContinuation_iff, UInt8.toNat_ofNat']
        omega
      · rw [codePoint4_eq, UInt8.toNat_ofNat', UInt8.toNat_ofNat', UInt8.toNat_ofNat',
          UInt8.toNat_ofNat']
        omega
      · rw [codePoint4_eq, UInt8.toNat_ofNat', UInt8.toNat_ofNat', UInt8.toNat_ofNat',
          UInt8.toNat_ofNat']
        omega
  · rintro ⟨c1, c2, c3, tail, rfl, ⟨first, second, third⟩, lower, upper, later⟩
    rw [isContinuation_iff] at first second third
    rw [codePoint4_eq] at lower upper
    have encodes : Encodes (((c.toNat % 8 * 64 + c1.toNat % 64) * 64 + c2.toNat % 64) * 64 +
        c3.toNat % 64) _ := .four lower (by omega)
    rw [ofNat_eq (by omega : c.toNat = _), ofNat_eq (by omega : c1.toNat = _),
      ofNat_eq (by omega : c2.toNat = _), ofNat_eq (by omega : c3.toNat = _)] at encodes
    exact wellFormed_encodes encodes (by omega) later

theorem not_wellFormed
    (lead : (0x80 ≤ c.toNat ∧ c.toNat < 0xc0) ∨ 0xf8 ≤ c.toNat) : ¬ WellFormed (c :: rest) := by
  intro formed
  obtain ⟨point, bytes, tail, same, encodes, -, -⟩ := wellFormed_first formed
  cases encodes <;>
    simp only [cons_append, nil_append, List.cons.injEq] at same <;>
    obtain ⟨rfl, rfl⟩ := same <;>
    rw [UInt8.toNat_ofNat'] at lead <;>
    omega

/-- The check ends on every text, and text passes exactly when it is well formed. -/
theorem isValidUtf8_iff (bytes : Bytes) :
    isValidUtf8 bytes = true ↔
      ∃ characters : List Char, bytes = characters.flatMap String.utf8EncodeChar := by
  change isValidUtf8 bytes = true ↔ WellFormed bytes
  fun_induction isValidUtf8 bytes with
  | case1 => simp [wellFormed_nil]
  | case2 c rest plain ih =>
    rw [UInt8.le_iff_toNat_le] at plain
    rw [wellFormed_one (Nat.lt_succ_of_le plain), ih]
  | case3 c plain two c1 rest broken =>
    rw [wellFormed_two ((two_iff c).mp two)]
    simp [broken]
  | case4 c plain two c1 rest continued overlong =>
    rw [wellFormed_two ((two_iff c).mp two)]
    simp [overlong]
  | case5 c plain two c1 rest continued lower ih =>
    rw [wellFormed_two ((two_iff c).mp two), ih]
    simp [not_not.mp continued, not_lt.mp lower]
  | case6 c rest plain two short =>
    rw [wellFormed_two ((two_iff c).mp two)]
    refine iff_of_false Bool.false_ne_true ?_
    rintro ⟨c1, tail, same, -⟩
    exact short c1 tail same
  | case7 c plain two three c1 c2 rest broken =>
    rw [wellFormed_three ((three_iff c).mp three)]
    simp only [Bool.not_eq_true] at broken
    rcases broken with first | second
    · simp [first]
    · simp [second]
  | case8 c plain two three c1 c2 rest continued overlong =>
    rw [wellFormed_three ((three_iff c).mp three)]
    simp [overlong]
  | case9 c plain two three c1 c2 rest continued lower surrogate =>
    rw [wellFormed_three ((three_iff c).mp three)]
    simp [surrogate]
  | case10 c plain two three c1 c2 rest continued lower character ih =>
    rw [wellFormed_three ((three_iff c).mp three), ih]
    rw [not_or, not_not, not_not] at continued
    rw [not_and_or, not_le, not_le] at character
    simp [continued, not_lt.mp lower, character]
  | case11 c rest plain two three short =>
    rw [wellFormed_three ((three_iff c).mp three)]
    refine iff_of_false Bool.false_ne_true ?_
    rintro ⟨c1, c2, tail, same, -⟩
    exact short c1 c2 tail same
  | case12 c plain two three four c1 c2 c3 rest broken =>
    rw [wellFormed_four ((four_iff c).mp four)]
    simp only [Bool.not_eq_true] at broken
    rcases broken with first | second | third
    · simp [first]
    · simp [second]
    · simp [third]
  | case13 c plain two three four c1 c2 c3 rest continued overlong =>
    rw [wellFormed_four ((four_iff c).mp four)]
    simp [overlong]
  | case14 c plain two three four c1 c2 c3 rest continued lower large =>
    rw [wellFormed_four ((four_iff c).mp four)]
    simp [large]
  | case15 c plain two three four c1 c2 c3 rest continued lower upper ih =>
    rw [wellFormed_four ((four_iff c).mp four), ih]
    rw [not_or, not_or, not_not, not_not, not_not] at continued
    simp [continued, not_lt.mp lower, not_lt.mp upper]
  | case16 c rest plain two three four short =>
    rw [wellFormed_four ((four_iff c).mp four)]
    refine iff_of_false Bool.false_ne_true ?_
    rintro ⟨c1, c2, c3, tail, same, -⟩
    exact short c1 c2 c3 tail same
  | case17 c rest plain two three four =>
    rw [UInt8.le_iff_toNat_le] at plain
    rw [two_iff] at two
    rw [three_iff] at three
    rw [four_iff] at four
    have limit : (0x7f : UInt8).toNat = 0x7f := rfl
    refine iff_of_false Bool.false_ne_true (not_wellFormed ?_)
    omega

end SwStack.WebSocket
