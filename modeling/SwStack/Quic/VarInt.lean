import SwStack.Lib.Cursor
import SwStack.Quic.Frame

/-! Variable-length integers: a two-bit prefix of the first byte tells how many bytes they
take, big-endian. -/
namespace SwStack.Quic

open SwStack.Lib List

/-- How decoding fails: with a message, by a read outside the input, or without end. -/
inductive DecodeFailure where
  | error (message : String)
  | outside
  | unfinished
  deriving DecidableEq

abbrev Decoder (α : Type) := Cursor UInt8 DecodeFailure α

def DecodeFailure.IsError : DecodeFailure → Prop
  | .error _ => True
  | _ => False

def appendBigEndian (value byteCount : Nat) : Bytes :=
  (List.range byteCount).map fun i => UInt8.ofNat ((value >>> ((byteCount - 1 - i) * 8)) &&& 0xff)

def encodeVarInt (value : Nat) : Except String Bytes :=
  if maxVarInt < value then .error "QUIC variable integer is too large"
  else if value ≤ 0x3f then .ok [UInt8.ofNat value]
  else if value ≤ 0x3fff then .ok (appendBigEndian (value ||| 0x4000) 2)
  else if value ≤ 0x3fffffff then .ok (appendBigEndian (value ||| 0x80000000) 4)
  else .ok (appendBigEndian (value ||| 0xc000000000000000) 8)

/-- Folds `byteCount` bytes into the value read so far. -/
def readBigEndian (input : Bytes) : Nat → Nat → Nat → Except DecodeFailure Nat
  | 0, _, encoded => .ok encoded
  | byteCount + 1, position, encoded =>
    match input[position]? with
    | some byte => readBigEndian input byteCount (position + 1) ((encoded <<< 8) ||| byte.toNat)
    | none => .error .outside

def varIntMask (byteCount : Nat) : Nat :=
  if byteCount = 1 then 0x3f
  else if byteCount = 2 then 0x3fff
  else if byteCount = 4 then 0x3fffffff
  else maxVarInt

def decodeVarInt : Decoder Nat := fun input offset =>
  if input.length ≤ offset then .error (.error "QUIC variable integer is missing")
  else match input[offset]? with
  | none => .error .outside
  | some first =>
    let byteCount := 1 <<< (first.toNat >>> 6)
    if input.length - offset < byteCount then
      .error (.error "QUIC variable integer is truncated")
    else match readBigEndian input byteCount offset 0 with
    | .ok encoded => .ok (encoded &&& varIntMask byteCount, offset + byteCount)
    | .error failure => .error failure

def bigEndian : Nat → Nat → Bytes
  | _, 0 => []
  | value, byteCount + 1 => UInt8.ofNat (value / 256 ^ byteCount) :: bigEndian value byteCount

theorem appendBigEndian_eq (value byteCount : Nat) :
    appendBigEndian value byteCount = bigEndian value byteCount := by
  induction byteCount with
  | zero => rfl
  | succ byteCount ih =>
    rw [appendBigEndian, range_succ_eq_map, map_cons, map_map, bigEndian, ← ih]
    congr 1
    · apply UInt8.toNat_inj.mp
      have mask : (0xff : Nat) = 2 ^ 8 - 1 := rfl
      have power : 2 ^ (byteCount * 8) = 256 ^ byteCount := by rw [Nat.mul_comm, Nat.pow_mul]
      simp only [Nat.add_sub_cancel, Nat.sub_zero, mask, Nat.and_two_pow_sub_one_eq_mod,
        Nat.shiftRight_eq_div_pow, UInt8.toNat_ofNat', power, Nat.mod_mod]
    · refine map_congr_left fun i _ => ?_
      simp only [Function.comp_apply, Nat.succ_eq_add_one]
      congr 4
      omega

@[simp] theorem length_bigEndian (value byteCount : Nat) :
    (bigEndian value byteCount).length = byteCount := by
  induction byteCount with
  | zero => rfl
  | succ byteCount ih => rw [bigEndian, length_cons, ih]

theorem bigEndian_mod (value byteCount : Nat) :
    bigEndian (value % 256 ^ byteCount) byteCount = bigEndian value byteCount := by
  induction byteCount generalizing value with
  | zero => rfl
  | succ byteCount ih =>
    have top : value % 256 ^ (byteCount + 1) / 256 ^ byteCount =
        value / 256 ^ byteCount % 256 := by
      rw [Nat.pow_succ, Nat.mod_mul_right_div_self]
    have low : value % 256 ^ (byteCount + 1) % 256 ^ byteCount = value % 256 ^ byteCount :=
      Nat.mod_mod_of_dvd value (Nat.pow_dvd_pow 256 (Nat.le_succ byteCount))
    rw [bigEndian, bigEndian, top, ← ih (value % _), low, ih]
    congr 1
    apply UInt8.toNat_inj.mp
    simp

theorem shift_or_byte (encoded : Nat) (byte : UInt8) :
    (encoded <<< 8) ||| byte.toNat = encoded * 256 + byte.toNat := by
  have small := byte.toNat_lt
  have joined := Nat.two_pow_add_eq_or_of_lt (i := 8) small encoded
  rw [Nat.shiftLeft_eq, Nat.mul_comm encoded, ← joined]

variable {value byteCount : Nat}

theorem readBigEndian_bigEndian (fits : value < 256 ^ byteCount)
    (before after : Bytes) (encoded : Nat) :
    readBigEndian (before ++ (bigEndian value byteCount ++ after)) byteCount before.length encoded =
      .ok (encoded * 256 ^ byteCount + value) := by
  induction byteCount generalizing value before encoded with
  | zero =>
    have zero : value = 0 := by simpa using fits
    simp [readBigEndian, zero]
  | succ byteCount ih =>
    have positive : 0 < 256 ^ byteCount := Nat.pow_pos (by decide)
    have digit : value / 256 ^ byteCount < 256 := by
      rw [Nat.div_lt_iff_lt_mul positive, Nat.mul_comm, ← Nat.pow_succ]
      exact fits
    have here : (before ++ (bigEndian value (byteCount + 1) ++ after))[before.length]? =
        some (UInt8.ofNat (value / 256 ^ byteCount)) := by
      simp [bigEndian]
    have rest := ih (Nat.mod_lt value positive)
      (before ++ [UInt8.ofNat (value / 256 ^ byteCount)])
      (encoded * 256 + value / 256 ^ byteCount)
    rw [readBigEndian, here]
    dsimp only
    rw [shift_or_byte, UInt8.toNat_ofNat_of_lt' digit, bigEndian]
    rw [bigEndian_mod, append_assoc, length_append] at rest
    refine rest.trans (congrArg Except.ok ?_)
    have parts := Nat.div_add_mod value (256 ^ byteCount)
    rw [Nat.add_mul, Nat.pow_succ]
    linarith [Nat.mul_comm (value / 256 ^ byteCount) (256 ^ byteCount)]

/-- The first byte of a word tells its length, and the bits below its prefix are the value. -/
theorem decodeVarInt_word (prefixBits : Nat)
    (top : word / 256 ^ (byteCount - 1) / 64 = prefixBits) (count : 1 <<< prefixBits = byteCount)
    (fits : word < 256 ^ byteCount) (masked : word &&& varIntMask byteCount = value) :
    decodeVarInt.Yields before (bigEndian word byteCount) (.ok value) := by
  intro after
  have positive : 0 < byteCount := by
    rw [← count, Nat.shiftLeft_eq, Nat.one_mul]
    exact Nat.pow_pos (by decide)
  obtain ⟨rest, rfl⟩ := Nat.exists_eq_add_of_le' positive
  rw [Nat.add_sub_cancel] at top
  have digit : word / 256 ^ rest < 256 := by
    rw [Nat.div_lt_iff_lt_mul (Nat.pow_pos (by decide)), Nat.mul_comm, ← Nat.pow_succ]
    exact fits
  have here : (before ++ (bigEndian word (rest + 1) ++ after))[before.length]? =
      some (UInt8.ofNat (word / 256 ^ rest)) := by
    simp [bigEndian]
  have length : (before ++ (bigEndian word (rest + 1) ++ after)).length =
      before.length + (rest + 1 + after.length) := by simp
  unfold decodeVarInt
  rw [length, if_neg (by omega), here]
  dsimp only
  rw [UInt8.toNat_ofNat_of_lt' digit, Nat.shiftRight_eq_div_pow, top, count, if_neg (by omega),
    readBigEndian_bigEndian fits]
  dsimp only
  rw [Nat.zero_mul, Nat.zero_add, masked, length_append, length_bigEndian]
  rfl

theorem and_varIntMask (value byteCount : Nat) (width : Nat)
    (mask : varIntMask byteCount = 2 ^ width - 1) :
    value &&& varIntMask byteCount = value % 2 ^ width := by
  rw [mask, Nat.and_two_pow_sub_one_eq_mod]

theorem or_prefixBits (prefixBits : Nat) (small : value < 2 ^ width) :
    value ||| (2 ^ width * prefixBits) = 2 ^ width * prefixBits + value := by
  rw [Nat.or_comm, Nat.two_pow_add_eq_or_of_lt small]

/-- An encoded value is read back, whatever follows it. -/
theorem decodeVarInt_yields {before bytes : Bytes} {value : Nat}
    (encoded : encodeVarInt value = .ok bytes) : decodeVarInt.Yields before bytes (.ok value) := by
  have bound : maxVarInt = 4611686018427387903 := rfl
  unfold encodeVarInt at encoded
  split at encoded
  · cases encoded
  split at encoded
  · cases encoded
    have word : [UInt8.ofNat value] = bigEndian value 1 := by simp [bigEndian]
    rw [word]
    refine decodeVarInt_word 0 ?_ rfl (by omega) ?_
    · omega
    · rw [and_varIntMask value 1 6 rfl]
      omega
  split at encoded
  · cases encoded
    have small : value < 2 ^ 14 := by omega
    have word := or_prefixBits 1 small
    have marked : 2 ^ 14 * 1 = 0x4000 := by norm_num
    rw [marked] at word
    rw [appendBigEndian_eq, word, ← marked]
    refine decodeVarInt_word 1 (by omega) rfl (by omega) ?_
    rw [and_varIntMask _ 2 14 rfl]
    omega
  split at encoded
  · cases encoded
    have small : value < 2 ^ 30 := by omega
    have word := or_prefixBits 2 small
    have marked : 2 ^ 30 * 2 = 0x80000000 := by norm_num
    rw [marked] at word
    rw [appendBigEndian_eq, word, ← marked]
    refine decodeVarInt_word 2 (by omega) rfl (by omega) ?_
    rw [and_varIntMask _ 4 30 rfl]
    omega
  · cases encoded
    have small : value < 2 ^ 62 := by omega
    have word := or_prefixBits 3 small
    have marked : 2 ^ 62 * 3 = 0xC000000000000000 := by norm_num
    rw [marked] at word
    rw [appendBigEndian_eq, word, ← marked]
    refine decodeVarInt_word 3 (by omega) rfl (by omega) ?_
    rw [and_varIntMask _ 8 62 rfl]
    omega

theorem encodeVarInt_length (encoded : encodeVarInt value = .ok bytes) :
    bytes.length = varIntSize value ∧ value ≤ maxVarInt := by
  have bound : maxVarInt = 4611686018427387903 := rfl
  unfold encodeVarInt at encoded
  unfold varIntSize
  repeat' split at encoded
  all_goals cases encoded
  · rename_i small
    rw [if_pos small]
    exact ⟨rfl, by omega⟩
  · rename_i large small
    rw [if_neg large, if_pos small]
    exact ⟨by simp [appendBigEndian_eq], by omega⟩
  · rename_i large larger small
    rw [if_neg large, if_neg larger, if_pos small]
    exact ⟨by simp [appendBigEndian_eq], by omega⟩
  · rename_i fits large larger largest
    rw [if_neg large, if_neg larger, if_neg largest, if_pos (by omega)]
    exact ⟨by simp [appendBigEndian_eq], by omega⟩

theorem encodeVarInt_total (fits : value ≤ maxVarInt) :
    ∃ bytes, encodeVarInt value = .ok bytes := by
  unfold encodeVarInt
  rw [if_neg (by omega)]
  repeat' split
  all_goals exact ⟨_, rfl⟩

/-- What is written of a value in range. -/
def varIntBytes (value : Nat) : Bytes :=
  match encodeVarInt value with
  | .ok bytes => bytes
  | .error _ => []

theorem varIntBytes_eq (fits : value ≤ maxVarInt) :
    encodeVarInt value = .ok (varIntBytes value) := by
  obtain ⟨bytes, encoded⟩ := encodeVarInt_total fits
  rw [varIntBytes, encoded]

theorem varIntBytes_length (fits : value ≤ maxVarInt) :
    0 < (varIntBytes value).length ∧ (varIntBytes value).length ≤ 8 := by
  rw [(encodeVarInt_length (varIntBytes_eq fits)).1]
  unfold varIntSize
  rw [if_pos fits]
  split <;> [decide; split <;> [decide; split <;> decide]]

theorem decodeVarInt_varIntBytes (small : number ≤ maxVarInt) :
    decodeVarInt (varIntBytes number) 0 = .ok (number, (varIntBytes number).length) := by
  have read := @decodeVarInt_yields [] _ _ (varIntBytes_eq small) []
  rw [append_nil] at read
  exact read

def varIntMissing : String := "QUIC variable integer is missing"

def varIntTruncated : String := "QUIC variable integer is truncated"

/-- An integer of which the last bytes are missing is refused. -/
theorem decodeVarInt_truncated {before part : Bytes} {value : Nat} (small : value ≤ maxVarInt)
    (begun : part <+: varIntBytes value) (unfinished : part ≠ varIntBytes value) :
    ∃ message ∈ [varIntMissing, varIntTruncated],
      decodeVarInt (before ++ part) before.length = .error (.error message) := by
  cases part with
  | nil =>
    refine ⟨varIntMissing, by simp, ?_⟩
    rw [decodeVarInt, if_pos (by simp)]
    rfl
  | cons first rest =>
    refine ⟨varIntTruncated, by simp, ?_⟩
    obtain ⟨missing, whole⟩ := begun
    have shorter : (first :: rest).length < (varIntBytes value).length := by
      rw [← whole, length_append, Nat.lt_add_right_iff_pos, length_pos_iff]
      rintro rfl
      exact unfinished (by rw [← whole, append_nil])
    -- the first byte of the whole integer tells its length
    have width : 1 <<< (first.toNat >>> 6) = (varIntBytes value).length := by
      have read := decodeVarInt_varIntBytes small
      rw [← whole, decodeVarInt, if_neg (by simp), whole] at read
      have head : (varIntBytes value)[0]? = some first := by
        rw [← whole]
        rfl
      rw [head] at read
      dsimp only at read
      split at read
      · cases read
      · split at read
        · obtain ⟨_, counted⟩ := Prod.mk.inj (Except.ok.inj read)
          rwa [Nat.zero_add] at counted
        · cases read
    rw [decodeVarInt, if_neg (by simp), getElem?_append_right le_rfl, Nat.sub_self,
      getElem?_cons_zero]
    dsimp only
    rw [if_pos]
    · rfl
    · rw [width, length_append]
      omega

theorem readBigEndian_total (encoded : Nat) (inside : position + byteCount ≤ input.length) :
    ∃ value, readBigEndian input byteCount position encoded = .ok value := by
  induction byteCount generalizing position encoded with
  | zero => exact ⟨encoded, rfl⟩
  | succ byteCount ih =>
    have here : input[position]? = some input[position] := getElem?_eq_getElem (by omega)
    rw [readBigEndian, here]
    exact ih _ (by omega)

theorem eq_bigEndian_of_readBigEndian (inside : position + byteCount ≤ input.length)
    (read : readBigEndian input byteCount position encoded = .ok value) :
    (input.drop position).take byteCount = bigEndian value byteCount ∧
      value / 256 ^ byteCount = encoded := by
  induction byteCount generalizing position encoded with
  | zero =>
    cases read
    exact ⟨rfl, by rw [Nat.pow_zero, Nat.div_one]⟩
  | succ byteCount ih =>
    have here : input[position]? = some input[position] := getElem?_eq_getElem (by omega)
    rw [readBigEndian, here] at read
    obtain ⟨digits, top⟩ := ih (by omega) read
    have small := input[position].toNat_lt
    rw [shift_or_byte] at top
    have power : value / 256 ^ (byteCount + 1) = value / 256 ^ byteCount / 256 := by
      rw [Nat.pow_succ, Nat.div_div_eq_div_mul]
    refine ⟨?_, by omega⟩
    rw [drop_eq_getElem_cons (by omega), take_succ_cons, digits, bigEndian, top]
    congr 1
    apply UInt8.toNat_inj.mp
    rw [UInt8.toNat_ofNat']
    omega

theorem varIntMask_shift (small : kind < 4) :
    varIntMask (1 <<< kind) = 2 ^ (8 * 1 <<< kind - 2) - 1 := by
  revert kind
  decide

/-- The word of an integer that fills its bytes has the prefix above the value. -/
theorem decodeVarInt_whole (read : decodeVarInt bytes 0 = .ok (value, bytes.length)) :
    bytes = bigEndian (2 ^ (8 * bytes.length - 2) * Nat.log2 bytes.length + value)
      bytes.length := by
  cases bytes with
  | nil => cases read
  | cons first rest =>
    have small := first.toNat_lt
    rw [decodeVarInt, if_neg (by simp)] at read
    dsimp only [getElem?_cons_zero] at read
    split at read
    · cases read
    rename_i complete
    obtain ⟨word, word_read⟩ := readBigEndian_total 0
      (show 0 + 1 <<< (first.toNat >>> 6) ≤ (first :: rest).length by omega)
    rw [word_read] at read
    obtain ⟨masked, counted⟩ := Prod.mk.inj (Except.ok.inj read)
    rw [Nat.zero_add] at counted
    rw [counted] at word_read
    obtain ⟨digits, top⟩ := eq_bigEndian_of_readBigEndian (by omega) word_read
    rw [drop_zero, List.take_length] at digits
    have kind : first.toNat >>> 6 < 4 := by
      rw [Nat.shiftRight_eq_div_pow]
      omega
    rw [and_varIntMask _ _ _ (varIntMask_shift kind), counted] at masked
    have log : Nat.log2 (first :: rest).length = first.toNat >>> 6 := by
      rw [← counted, Nat.shiftLeft_eq, Nat.one_mul, Nat.log2_two_pow]
    -- the first byte is the top digit, and its upper two bits are the prefix
    have topDigit : first.toNat = word / 256 ^ rest.length := by
      rw [length_cons] at digits top
      have same := congrArg UInt8.toNat (List.cons.inj digits).1
      rw [UInt8.toNat_ofNat'] at same
      refine same.trans (Nat.mod_eq_of_lt ?_)
      rw [Nat.div_lt_iff_lt_mul (Nat.pow_pos (by decide)), Nat.mul_comm, ← Nat.pow_succ]
      exact (Nat.div_eq_zero_iff_lt (Nat.pow_pos (by decide))).mp top
    have width : 2 ^ (8 * (first :: rest).length - 2) = 256 ^ rest.length * 2 ^ 6 := by
      have base : 256 = 2 ^ 8 := rfl
      rw [base, ← Nat.pow_mul, ← Nat.pow_add, length_cons]
      congr 1
    have upper : word / 2 ^ (8 * (first :: rest).length - 2) = first.toNat >>> 6 := by
      rw [width, ← Nat.div_div_eq_div_mul, ← topDigit, Nat.shiftRight_eq_div_pow]
    rw [log, ← upper, ← masked, Nat.div_add_mod]
    exact digits

theorem decodeVarInt_injective (first : decodeVarInt left 0 = .ok (value, left.length))
    (second : decodeVarInt right 0 = .ok (value, right.length))
    (length : left.length = right.length) : left = right := by
  rw [decodeVarInt_whole first, decodeVarInt_whole second, length]

theorem varIntMask_le (encoded byteCount : Nat) : encoded &&& varIntMask byteCount ≤ maxVarInt := by
  refine Nat.and_le_right.trans ?_
  unfold varIntMask
  repeat' split
  all_goals decide

theorem decodeVarInt_cases (input : Bytes) (offset : Nat) :
    (∃ message, decodeVarInt input offset = .error (.error message)) ∨
      ∃ value byteCount, 0 < byteCount ∧ offset + byteCount ≤ input.length ∧ value ≤ maxVarInt ∧
        decodeVarInt input offset = .ok (value, offset + byteCount) := by
  unfold decodeVarInt
  by_cases missing : input.length ≤ offset
  · rw [if_pos missing]
    exact .inl ⟨_, rfl⟩
  rw [if_neg missing, getElem?_eq_getElem (by omega)]
  dsimp only
  split
  · exact .inl ⟨_, rfl⟩
  · rename_i complete
    have positive : 0 < 1 <<< (input[offset].toNat >>> 6) := by
      rw [Nat.shiftLeft_eq, Nat.one_mul]
      exact Nat.pow_pos (by decide)
    have enough : offset + 1 <<< (input[offset].toNat >>> 6) ≤ input.length := by omega
    obtain ⟨encoded, read⟩ := readBigEndian_total 0 enough
    rw [read]
    exact .inr ⟨_, _, positive, by omega, varIntMask_le encoded _, rfl⟩

theorem decodeVarInt_keeps : decodeVarInt.Keeps 1 DecodeFailure.IsError (· ≤ maxVarInt) := by
  constructor
  · intro input offset value next inside read
    rcases decodeVarInt_cases input offset with ⟨message, failed⟩ |
      ⟨found, byteCount, positive, fits, small, same⟩
    · cases failed.symm.trans read
    · cases same.symm.trans read
      exact ⟨by omega, fits, small⟩
  · intro input offset failure inside read
    rcases decodeVarInt_cases input offset with ⟨message, failed⟩ |
      ⟨found, byteCount, positive, fits, small, same⟩
    · cases failed.symm.trans read
      trivial
    · cases same.symm.trans read

end SwStack.Quic
