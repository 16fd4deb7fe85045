import SwStack.Http3.QpackRoundTrip

/-! What an integer with a prefix decodes to. The groups are added on 64 bits and a tenth one is
let through whatever it holds, so a number of 2^64 or more comes back as what remains of it. -/
namespace SwStack.Http3

open SwStack.Lib SwStack.Quic List

/-- The number that groups of seven bits spell, up to the first one that does not continue, and
how many bytes it takes. -/
def groupsValue : Bytes → Option (Nat × Nat)
  | [] => none
  | byte :: rest =>
    if byte.toNat &&& 0x80 = 0 then some (byte.toNat &&& 0x7f, 1)
    else (groupsValue rest).map fun read => ((byte.toNat &&& 0x7f) + 128 * read.1, read.2 + 1)

/-- The number that bytes spell with a prefix in the first one, and how many bytes it takes. -/
def integerValue (prefixBits : Nat) : Bytes → Option (Nat × Nat)
  | [] => none
  | firstByte :: rest =>
    let value := firstByte.toNat &&& maxPrefix prefixBits
    if value < maxPrefix prefixBits then some (value, 1)
    else (groupsValue rest).map fun read => (value + read.1, read.2 + 1)

/-- A decoded integer is the one spelled, and the offset moves by the bytes it takes. -/
def ExactAt (prefixBits : Nat) (input : Bytes) (offset : Nat) : Prop :=
  ∀ value next, decodeInteger prefixBits input offset = .ok (value, next) →
    ∃ used, integerValue prefixBits (input.drop offset) = some (value, used) ∧ next = offset + used

theorem groupsValue_used (read : groupsValue bytes = some (value, used)) : 0 < used := by
  cases bytes with
  | nil => cases read
  | cons byte rest =>
    rw [groupsValue] at read
    split at read
    · cases read
      exact Nat.one_pos
    · obtain ⟨_, _, same⟩ := Option.map_eq_some_iff.mp read
      cases same
      exact Nat.succ_pos _

theorem addGroup_mod (value low high shift : Nat) :
    ((value + (low <<< shift % 2 ^ 64)) % 2 ^ 64 + high * 2 ^ (shift + 7)) % 2 ^ 64 =
      (value + (low + 128 * high) * 2 ^ shift) % 2 ^ 64 := by
  have digits : (low + 128 * high) * 2 ^ shift = low * 2 ^ shift + high * 2 ^ (shift + 7) := by
    rw [Nat.pow_add]
    ring
  rw [Nat.shiftLeft_eq, digits, ← Nat.add_assoc, Nat.mod_add_mod, Nat.add_right_comm,
    Nat.add_mod_mod, Nat.add_right_comm]

/-- The loop reads the groups to their end, at most as many as shifts below 64 allow. -/
theorem decodeGroups_eq (whole : shift + 7 * fuel = 63) (value : Nat)
    (input : Bytes) (offset : Nat) :
    decodeGroups (fuel + 1) shift value input offset =
      match groupsValue (input.drop offset) with
      | none =>
        if input.length - offset ≤ fuel then
          .error (.error "QPACK integer continuation is truncated")
        else .error (.error "QPACK integer is too large")
      | some (groups, used) =>
        if used ≤ fuel + 1 then .ok ((value + groups * 2 ^ shift) % 2 ^ 64, offset + used)
        else .error (.error "QPACK integer is too large") := by
  induction fuel generalizing shift value offset with
  | zero =>
    rw [decodeGroups]
    beta_reduce
    by_cases ended : input.length ≤ offset
    · rw [if_pos ended, drop_eq_nil_of_le ended, groupsValue, if_pos (by omega)]
    · rw [if_neg ended, getElem?_eq_getElem (by omega), drop_eq_getElem_cons (by omega),
        groupsValue]
      by_cases last : input[offset].toNat &&& 0x80 = 0
      · simp only [if_pos last, Nat.add_mod_mod, Nat.shiftLeft_eq]
        rfl
      · simp only [if_neg last]
        rw [if_pos (by omega)]
        cases rest : groupsValue (input.drop (offset + 1)) with
        | none =>
          dsimp only [Option.map]
          rw [if_neg (by omega)]
        | some read =>
          have used := groupsValue_used rest
          dsimp only [Option.map]
          rw [if_neg (by omega)]
  | succ fuel ih =>
    rw [decodeGroups]
    beta_reduce
    by_cases ended : input.length ≤ offset
    · rw [if_pos ended, drop_eq_nil_of_le ended, groupsValue, if_pos (by omega)]
    · rw [if_neg ended, getElem?_eq_getElem (by omega), drop_eq_getElem_cons (by omega),
        groupsValue]
      by_cases last : input[offset].toNat &&& 0x80 = 0
      · simp only [if_pos last, Nat.add_mod_mod, Nat.shiftLeft_eq]
        rw [if_pos (by omega)]
      · simp only [if_neg last]
        rw [if_neg (by omega), ih (by omega)]
        cases rest : groupsValue (input.drop (offset + 1)) with
        | none =>
          dsimp only [Option.map]
          congr 1
          exact propext ⟨fun few => by omega, fun few => by omega⟩
        | some read =>
          dsimp only [Option.map]
          by_cases few : read.2 ≤ fuel + 1
          · rw [if_pos few, if_pos (by omega), addGroup_mod, Nat.add_assoc, Nat.add_comm 1]
          · rw [if_neg few, if_neg (by omega)]

/-- A decoded integer is the one spelled, as far as 64 bits hold it. -/
theorem decodeInteger_eq {prefixBits : Nat} {input : Bytes} {offset value next : Nat} :
    decodeInteger prefixBits input offset = .ok (value, next) ↔
      ∃ number used, integerValue prefixBits (input.drop offset) = some (number, used) ∧
        used ≤ 11 ∧ value = number % 2 ^ 64 ∧ next = offset + used := by
  unfold decodeInteger
  by_cases ended : input.length ≤ offset
  · rw [if_pos ended, drop_eq_nil_of_le ended]
    constructor
    · intro read
      cases read
    · rintro ⟨_, _, read, -⟩
      cases read
  · rw [if_neg ended, getElem?_eq_getElem (by omega), drop_eq_getElem_cons (by omega)]
    dsimp only [integerValue]
    have small : input[offset].toNat &&& maxPrefix prefixBits < 2 ^ 64 :=
      Nat.and_le_left.trans_lt (input[offset].toNat_lt.trans (by decide))
    by_cases short : input[offset].toNat &&& maxPrefix prefixBits < maxPrefix prefixBits
    · rw [if_pos short, if_pos short]
      constructor
      · intro read
        cases read
        exact ⟨_, _, rfl, by decide, (Nat.mod_eq_of_lt small).symm, rfl⟩
      · rintro ⟨_, _, read, -, rfl, rfl⟩
        cases read
        rw [Nat.mod_eq_of_lt small]
    · rw [if_neg short, if_neg short, decodeGroups_eq rfl]
      cases rest : groupsValue (input.drop (offset + 1)) with
      | none =>
        dsimp only [Option.map]
        constructor
        · intro read
          split at read <;> cases read
        · rintro ⟨_, _, read, -⟩
          cases read
      | some read =>
        dsimp only [Option.map]
        constructor
        · intro decoded
          split at decoded
          · rename_i few
            cases decoded
            refine ⟨_, _, rfl, by omega, ?_, by omega⟩
            rw [Nat.pow_zero, Nat.mul_one]
          · cases decoded
        · rintro ⟨_, _, spelled, few, rfl, rfl⟩
          cases spelled
          rw [if_pos (by omega), Nat.pow_zero, Nat.mul_one, Nat.add_assoc, Nat.add_comm 1]

theorem leaves_of_free {prefixBits pattern : Nat} (positive : 0 < prefixBits)
    (narrow : prefixBits ≤ 8) (byte : pattern < 256)
    (free : pattern &&& maxPrefix prefixBits = 0) : Leaves prefixBits pattern := by
  have power : 2 ^ prefixBits ≤ 2 ^ 8 := Nat.pow_le_pow_right (by decide) narrow
  have two : 2 ^ 1 ≤ 2 ^ prefixBits := Nat.pow_le_pow_right (by decide) positive
  have max : maxPrefix prefixBits = 2 ^ prefixBits - 1 := by
    unfold maxPrefix
    rw [Nat.one_shiftLeft, Nat.mod_eq_of_lt (by omega)]
  refine ⟨by omega, fun low within => ⟨?_, ?_⟩⟩
  · exact Nat.or_lt_two_pow byte (show low < 2 ^ 8 by omega)
  · rw [Nat.and_or_distrib_right, free, Nat.zero_or, max, Nat.and_two_pow_sub_one_eq_mod,
      Nat.mod_eq_of_lt (by omega)]

/-- Decoding is exact where the number spelled in the bytes it reads is below 2^64, and every
number the encoder writes is read back, whatever stands before and after it. -/
theorem decodeInteger_exact_iff (prefixBits : Nat) (input : Bytes) (offset : Nat) :
    (ExactAt prefixBits input offset ↔
      ∀ number used, integerValue prefixBits (input.drop offset) = some (number, used) →
        used ≤ 11 → number < 2 ^ 64) ∧
    ∀ (pattern value : Nat) (before after : Bytes), 0 < prefixBits → prefixBits ≤ 8 →
      pattern < 256 → pattern &&& maxPrefix prefixBits = 0 → value < 2 ^ 62 →
      decodeInteger prefixBits
        (before ++ (encodeInteger value prefixBits pattern ++ after)) before.length =
        .ok (value, (before ++ encodeInteger value prefixBits pattern).length) := by
  constructor
  · constructor
    · intro exact number used spelled few
      obtain ⟨again, same, _⟩ := exact _ _ (decodeInteger_eq.mpr ⟨_, _, spelled, few, rfl, rfl⟩)
      obtain ⟨number_eq, -⟩ := Prod.mk.inj (Option.some.inj (spelled.symm.trans same))
      rw [number_eq]
      exact Nat.mod_lt _ (by decide)
    · intro small value next decoded
      obtain ⟨number, used, spelled, few, rfl, rfl⟩ := decodeInteger_eq.mp decoded
      rw [Nat.mod_eq_of_lt (small number used spelled few)]
      exact ⟨used, spelled, rfl⟩
  · intro pattern value before after positive narrow byte free small
    exact decodeInteger_yields before (leaves_of_free positive narrow byte free)
      (small.trans (by decide)) after

/-- A length of 2^64 + 127 passes as 127. -/
theorem decodeInteger_wraps :
    ¬∀ (prefixBits : Nat) (input : Bytes) (offset : Nat), ExactAt prefixBits input offset := by
  intro exact
  have read : decodeInteger 7 [0x7f, 0x80, 0x80, 0x80, 0x80, 0x80, 0x80, 0x80, 0x80, 0x80, 0x02] 0 =
      .ok (127, 11) := by decide
  obtain ⟨used, spelled, -⟩ := exact _ _ _ _ _ read
  have number : integerValue 7
      [0x7f, 0x80, 0x80, 0x80, 0x80, 0x80, 0x80, 0x80, 0x80, 0x80, 0x02] =
      some (2 ^ 64 + 127, 11) := by decide
  cases number.symm.trans spelled

end SwStack.Http3
