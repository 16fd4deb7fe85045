import SwStack.Types.Base64
import SwStack.Lib.Bits

/-! What Base64 writes is read back. Writer and reader carry bits from byte to sextet and from
sextet to byte, and at the end the reader is left with less than a byte. -/
namespace SwStack.Types

open SwStack.Lib List

theorem length_base64Chars : base64Chars.length = 64 := rfl

theorem base64Chars_nodup : base64Chars.Nodup := by decide

def sextetBits (character : UInt8) : List Bool := bits (base64Chars.idxOf character) 6

theorem getD_mem_base64Chars (small : index < 64) : base64Chars.getD index 0 ∈ base64Chars := by
  rw [getD_eq_getElem base64Chars 0 (length_base64Chars ▸ small)]
  exact getElem_mem _

theorem sextetBits_getD : sextetBits (base64Chars.getD (value % 64) 0) = bits value 6 := by
  have small : value % 64 < base64Chars.length := Nat.mod_lt _ (by decide)
  rw [sextetBits, getD_eq_getElem _ _ small, base64Chars_nodup.idxOf_getElem]
  exact @bits_mod value 6 6 le_rfl

theorem bits_push {value low pending count : Nat} (small : low < 2 ^ count)
    (fits : pending + count ≤ 32) :
    bits (value * 2 ^ count % 2 ^ 32 + low) (pending + count) =
      bits value pending ++ bits low count := by
  have shifted : value * 2 ^ count % 2 ^ 32 = (value % 2 ^ (32 - count)) <<< count := by
    have split : (2 : Nat) ^ 32 = 2 ^ (32 - count) * 2 ^ count := by
      rw [← Nat.pow_add]
      congr 1
      omega
    rw [split, Nat.mul_mod_mul_right, Nat.shiftLeft_eq]
  rw [shifted, Nat.shiftLeft_add_eq_or_of_lt small, bits_shift_or pending count small,
    bits_mod (by omega)]

theorem bits_zero (width : Nat) : bits 0 width = List.replicate width false := by
  induction width with
  | zero => rfl
  | succ width ih => rw [bits, ih, Nat.zero_testBit, replicate_succ]

theorem bits_fill (few : pending < 6) : bits (value * 256 / 2 ^ (pending + 2)) 6 =
      bits value pending ++ List.replicate (6 - pending) false := by
  have split : (256 : Nat) = 2 ^ (6 - pending) * 2 ^ (pending + 2) := by
    have exponent : 6 - pending + (pending + 2) = 8 := by omega
    calc 256 = 2 ^ 8 := rfl
      _ = 2 ^ (6 - pending) * 2 ^ (pending + 2) := by rw [← Nat.pow_add, exponent]
  have raised : value * 256 / 2 ^ (pending + 2) = value <<< (6 - pending) ||| 0 := by
    rw [split, ← Nat.mul_assoc, Nat.mul_div_cancel _ (Nat.two_pow_pos _), Nat.shiftLeft_eq,
      Nat.or_zero]
  have shifted := @bits_shift_or value 0 pending (6 - pending) (Nat.two_pow_pos _)
  rw [show pending + (6 - pending) = 6 by omega, bits_zero] at shifted
  rw [raised, shifted]

namespace Base64State

def written (state : Base64State) : List Bool :=
  state.output.flatMap sextetBits ++ bits state.value state.pending

theorem emitSextets_written (fuel : Nat) (state : Base64State)
    (enough : state.pending < 6 * fuel + 6) :
    (emitSextets fuel state).written = state.written ∧ (emitSextets fuel state).pending < 6 := by
  induction fuel generalizing state with
  | zero => exact ⟨rfl, enough⟩
  | succ fuel ih =>
    rw [emitSextets]
    split
    · rename_i few
      exact ⟨rfl, few⟩
    · rename_i more
      obtain ⟨kept, few⟩ := ih { state with
        pending := state.pending - 6
        output := state.output ++
          [base64Chars.getD (state.value / 2 ^ (state.pending - 6) % 64) 0] } (by
        dsimp only
        omega)
      refine ⟨kept.trans ?_, few⟩
      obtain ⟨rest, same⟩ := Nat.exists_eq_add_of_le (not_lt.mp more)
      rw [written, written, flatMap_append, flatMap_singleton, sextetBits_getD, same,
        Nat.add_sub_cancel_left, bits_add, ← Nat.shiftRight_eq_div_pow, append_assoc]

end Base64State

open Base64State

def encodeByte (state : Base64State) (byte : UInt8) : Base64State :=
  emitSextets 2
    { state with value := state.value * 256 % 2 ^ 32 + byte.toNat, pending := state.pending + 8 }

theorem encodeByte_written (state : Base64State) (byte : UInt8) (few : state.pending < 6) :
    (encodeByte state byte).written = state.written ++ byteBits byte ∧
      (encodeByte state byte).pending < 6 := by
  obtain ⟨same, less⟩ := emitSextets_written 2
    { state with value := state.value * 256 % 2 ^ 32 + byte.toNat, pending := state.pending + 8 }
    (by
      dsimp only
      omega)
  refine ⟨same.trans ?_, less⟩
  have pushed := @bits_push state.value byte.toNat state.pending 8 byte.toNat_lt (by omega)
  rw [written, written, append_assoc, byteBits]
  exact congrArg (state.output.flatMap sextetBits ++ ·) pushed

theorem encodeBytes_written (data : Bytes) (state : Base64State) (few : state.pending < 6) :
    (data.foldl encodeByte state).written = state.written ++ data.flatMap byteBits ∧
      (data.foldl encodeByte state).pending < 6 := by
  induction data generalizing state with
  | nil => exact ⟨(append_nil _).symm, few⟩
  | cons byte data ih =>
    obtain ⟨first, less⟩ := encodeByte_written state byte few
    obtain ⟨rest, last⟩ := ih (encodeByte state byte) less
    rw [foldl_cons, flatMap_cons, ← append_assoc, ← first]
    exact ⟨rest, last⟩

theorem emitSextets_alphabet (fuel : Nat) (state : Base64State)
    (inside : ∀ character ∈ state.output, character ∈ base64Chars) :
    ∀ character ∈ (emitSextets fuel state).output, character ∈ base64Chars := by
  induction fuel generalizing state with
  | zero => exact inside
  | succ fuel ih =>
    rw [emitSextets]
    split
    · exact inside
    · apply ih
      intro character member
      rcases mem_append.mp member with before | last
      · exact inside character before
      · rw [mem_singleton.mp last]
        exact getD_mem_base64Chars (Nat.mod_lt _ (by decide))

theorem encodeBytes_alphabet (data : Bytes) (state : Base64State)
    (inside : ∀ character ∈ state.output, character ∈ base64Chars) :
    ∀ character ∈ (data.foldl encodeByte state).output, character ∈ base64Chars := by
  induction data generalizing state with
  | nil => exact inside
  | cons byte data ih => exact ih (encodeByte state byte) (emitSextets_alphabet 2 _ inside)

/-- Characters that spell the data, and then the padding. -/
theorem base64Encode_spells (data : Bytes) :
    ∃ characters padding spare, base64Encode data = characters ++ List.replicate padding 0x3d ∧
      (∀ character ∈ characters, character ∈ base64Chars) ∧ spare < 6 ∧
      characters.flatMap sextetBits = data.flatMap byteBits ++ List.replicate spare false := by
  have start : ({ value := 0, pending := 0, output := [] } : Base64State).written = [] := rfl
  obtain ⟨spelled, few⟩ := encodeBytes_written data { value := 0, pending := 0, output := [] }
    (by decide)
  have inside := encodeBytes_alphabet data { value := 0, pending := 0, output := [] }
    (forall_mem_nil _)
  rw [start, nil_append] at spelled
  have unfolded : base64Encode data =
      let state := data.foldl encodeByte { value := 0, pending := 0, output := [] }
      let encoded :=
        if 0 < state.pending then
          state.output ++ [base64Chars.getD (state.value * 256 / 2 ^ (state.pending + 2) % 64) 0]
        else state.output
      encoded ++ List.replicate ((4 - encoded.length % 4) % 4) 0x3d := rfl
  rw [unfolded]
  generalize data.foldl encodeByte { value := 0, pending := 0, output := [] } = state at *
  dsimp only
  by_cases rest : 0 < state.pending
  · rw [if_pos rest]
    refine ⟨_, _, 6 - state.pending, rfl, ?_, by omega, ?_⟩
    · intro character member
      rcases mem_append.mp member with before | last
      · exact inside character before
      · rw [mem_singleton.mp last]
        exact getD_mem_base64Chars (Nat.mod_lt _ (by decide))
    · rw [flatMap_append, flatMap_singleton, sextetBits_getD, bits_fill few, ← spelled,
        written, append_assoc]
  · have none_left : state.pending = 0 := by omega
    rw [if_neg rest]
    refine ⟨_, _, 0, rfl, inside, by decide, ?_⟩
    rw [← spelled, written, none_left, bits, append_nil, replicate_zero,
      append_nil]

def decodeCharacter (state : Base64State) (character : UInt8) : Base64State :=
  let value := state.value * 64 % 2 ^ 32 + base64Chars.idxOf character
  let pending := state.pending + 6
  if pending < 8 then { state with value, pending }
  else
    { value
      pending := pending - 8
      output := state.output ++ [UInt8.ofNat (value / 2 ^ (pending - 8) % 256)] }

def Base64State.read (state : Base64State) : List Bool :=
  state.output.flatMap byteBits ++ bits state.value state.pending

theorem byteBits_ofNat (value : Nat) : byteBits (UInt8.ofNat (value % 256)) = bits value 8 := by
  rw [byteBits, UInt8.toNat_ofNat_of_lt' (Nat.mod_lt _ (by decide))]
  exact @bits_mod value 8 8 le_rfl

theorem decodeCharacter_read (state : Base64State) (character : UInt8)
    (inside : character ∈ base64Chars) (few : state.pending < 8) :
    (decodeCharacter state character).read = state.read ++ sextetBits character ∧
      (decodeCharacter state character).pending < 8 := by
  have index : base64Chars.idxOf character < 64 := idxOf_lt_length_iff.mpr inside
  have pushed := @bits_push state.value (base64Chars.idxOf character) state.pending 6 index
    (by omega)
  have whole : state.read ++ sextetBits character = state.output.flatMap byteBits ++
      bits (state.value * 64 % 2 ^ 32 + base64Chars.idxOf character) (state.pending + 6) := by
    rw [Base64State.read, append_assoc, sextetBits]
    exact congrArg (state.output.flatMap byteBits ++ ·) pushed.symm
  rw [whole, decodeCharacter]
  split
  · rename_i less
    exact ⟨rfl, less⟩
  · rename_i more
    refine ⟨?_, by
      dsimp only
      omega⟩
    obtain ⟨rest, same⟩ := Nat.exists_eq_add_of_le (not_lt.mp more)
    rw [Base64State.read, flatMap_append, flatMap_singleton, byteBits_ofNat, same,
      Nat.add_sub_cancel_left, bits_add, ← Nat.shiftRight_eq_div_pow, append_assoc]

theorem decodeCharacters_read (characters : Bytes) (state : Base64State)
    (inside : ∀ character ∈ characters, character ∈ base64Chars) (few : state.pending < 8) :
    (characters.foldl decodeCharacter state).read =
        state.read ++ characters.flatMap sextetBits ∧
      (characters.foldl decodeCharacter state).pending < 8 := by
  induction characters generalizing state with
  | nil => exact ⟨(append_nil _).symm, few⟩
  | cons character characters ih =>
    obtain ⟨here, later⟩ := forall_mem_cons.mp inside
    obtain ⟨first, less⟩ := decodeCharacter_read state character here few
    obtain ⟨rest, last⟩ := ih (decodeCharacter state character) later less
    rw [foldl_cons, flatMap_cons, ← append_assoc, ← first]
    exact ⟨rest, last⟩

theorem base64Decode_encode (data : Bytes) : base64Decode (base64Encode data) = data := by
  obtain ⟨characters, padding, spare, encoded, inside, few, spelled⟩ := base64Encode_spells data
  have kept : (characters ++ List.replicate padding 0x3d).takeWhile
      (fun byte => byte ∈ base64Chars) = characters := by
    rw [takeWhile_append_of_pos fun character member =>
      decide_eq_true (inside character member)]
    have stops : (List.replicate padding (0x3d : UInt8)).takeWhile
        (fun byte => byte ∈ base64Chars) = [] := by
      cases padding with
      | zero => rfl
      | succ padding => rfl
    rw [stops, append_nil]
  have unfolded : base64Decode (characters ++ List.replicate padding 0x3d) =
      (((characters ++ List.replicate padding 0x3d).takeWhile fun byte =>
        byte ∈ base64Chars).foldl decodeCharacter
          { value := 0, pending := 0, output := [] }).output := rfl
  obtain ⟨read, less⟩ := decodeCharacters_read characters
    { value := 0, pending := 0, output := [] } inside (by decide)
  rw [encoded, unfolded, kept]
  generalize characters.foldl decodeCharacter { value := 0, pending := 0, output := [] } = state
    at *
  have whole : state.output.flatMap byteBits ++ bits state.value state.pending =
      data.flatMap byteBits ++ List.replicate spare false := by
    rw [← spelled]
    exact read
  have lengths := congrArg List.length whole
  rw [length_append, length_append, length_flatMap_byteBits, length_flatMap_byteBits,
    length_bits, length_replicate] at lengths
  refine flatMap_byteBits_injective (append_inj whole ?_).1
  rw [length_flatMap_byteBits, length_flatMap_byteBits]
  omega

theorem mem_base64Encode (member : byte ∈ base64Encode data) :
    byte ∈ base64Chars ∨ byte = 0x3d := by
  obtain ⟨characters, padding, spare, encoded, inside, -, -⟩ := base64Encode_spells data
  rw [encoded] at member
  rcases mem_append.mp member with character | pad
  · exact .inl (inside byte character)
  · exact .inr (eq_of_mem_replicate pad)

theorem base64Encode_injective : Function.Injective base64Encode := by
  intro left right same
  rw [← base64Decode_encode left, same, base64Decode_encode]

/-- What follows the text is not read. -/
theorem base64_roundTrip (data rest : Bytes) (ends : ∀ byte ∈ rest.head?, byte ∉ base64Chars) :
    base64Decode (base64Encode data ++ rest) = data := by
  have stops : rest.takeWhile (fun byte => byte ∈ base64Chars) = [] := by
    cases rest with
    | nil => rfl
    | cons byte rest => exact takeWhile_cons_of_neg (by simpa using ends byte rfl)
  refine Eq.trans ?_ (base64Decode_encode data)
  rw [base64Decode, base64Decode, takeWhile_append, stops]
  split
  · rename_i whole
    rw [append_nil, (takeWhile_sublist _).eq_of_length whole]
  · rfl

theorem base64_roundTrip_blank : base64Decode (base64Encode [0xff] ++ [0x20, 0x41]) = [0xff] :=
  base64_roundTrip [0xff] [0x20, 0x41] (by simp [base64Chars, ascii])

end SwStack.Types
