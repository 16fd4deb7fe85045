import SwStack.Lib.Reader

/-! The low bits of a number, the highest of them first, and the bits of bytes. -/
namespace SwStack.Lib

open List

def bits (value : Nat) : Nat → List Bool
  | 0 => []
  | width + 1 => value.testBit width :: bits value width

def bitsValue (digits : List Bool) : Nat :=
  digits.foldl (fun value bit => 2 * value + bit.toNat) 0

@[simp] theorem length_bits (value width : Nat) : (bits value width).length = width := by
  induction width with
  | zero => rfl
  | succ width ih => rw [bits, length_cons, ih]

theorem bits_congr (same : ∀ place < width, left.testBit place = right.testBit place) :
    bits left width = bits right width := by
  induction width with
  | zero => rfl
  | succ width ih =>
    rw [bits, bits, same width (Nat.lt_succ_self _),
      ih fun place below => same place (below.trans (Nat.lt_succ_self _))]

/-- The low bits are those of the number shifted, and those shifted out. -/
theorem bits_add (value high low : Nat) :
    bits value (high + low) = bits (value >>> low) high ++ bits value low := by
  induction high with
  | zero => simp [bits]
  | succ high ih =>
    rw [Nat.succ_add, bits, ih, bits, Nat.testBit_shiftRight, Nat.add_comm low high,
      cons_append]

theorem bits_mod {value width modulus : Nat} (within : width ≤ modulus) :
    bits (value % 2 ^ modulus) width = bits value width := by
  apply bits_congr
  intro place below
  rw [Nat.testBit_mod_two_pow, decide_eq_true (by omega), Bool.true_and]

theorem bits_and_mask (value width : Nat) : bits (value &&& (2 ^ width - 1)) width =
    bits value width := by
  rw [Nat.and_two_pow_sub_one_eq_mod, bits_mod le_rfl]

/-- Bits written below others, as a shift and an or do it. -/
theorem bits_shift_or {high low : Nat} (width count : Nat) (small : low < 2 ^ count) :
    bits ((high <<< count) ||| low) (width + count) = bits high width ++ bits low count := by
  rw [bits_add]
  congr 1
  · apply bits_congr
    intro place below
    rw [Nat.testBit_shiftRight, Nat.testBit_or, Nat.testBit_shiftLeft,
      Nat.testBit_lt_two_pow (small.trans_le (Nat.pow_le_pow_right (by decide) (by omega))),
      decide_eq_true (show count ≤ count + place by omega), Bool.true_and, Bool.or_false,
      Nat.add_sub_cancel_left]
  · apply bits_congr
    intro place below
    rw [Nat.testBit_or, Nat.testBit_shiftLeft, decide_eq_false (show ¬count ≤ place by omega),
      Bool.false_and, Bool.false_or]

theorem bitsValue_append (digits : List Bool) (bit : Bool) :
    bitsValue (digits ++ [bit]) = 2 * bitsValue digits + bit.toNat := by
  rw [bitsValue, foldl_append]
  rfl

theorem bitsValue_lt (digits : List Bool) : bitsValue digits < 2 ^ digits.length := by
  induction digits using List.reverseRecOn with
  | nil => exact Nat.one_pos
  | append_singleton digits bit ih =>
    have small := Bool.toNat_lt bit
    rw [bitsValue_append, List.length_append, length_singleton, Nat.pow_succ]
    omega

theorem bits_bitsValue (digits : List Bool) : bits (bitsValue digits) digits.length = digits := by
  induction digits using List.reverseRecOn with
  | nil => rfl
  | append_singleton digits bit ih =>
    rw [bitsValue_append, List.length_append, length_singleton, bits_add,
      Nat.shiftRight_eq_div_pow]
    have halved : (2 * bitsValue digits + bit.toNat) / 2 ^ 1 = bitsValue digits := by
      have small := Bool.toNat_lt bit
      omega
    rw [halved, ih]
    cases bit <;> simp [bits, Nat.testBit_zero]

theorem bitsValue_bits (small : value < 2 ^ width) : bitsValue (bits value width) = value := by
  have back := bits_bitsValue (bits value width)
  rw [length_bits] at back
  have bound := bitsValue_lt (bits value width)
  rw [length_bits] at bound
  apply Nat.eq_of_testBit_eq
  intro place
  by_cases below : place < width
  · have each : ∀ {left right width : Nat}, bits left width = bits right width →
        ∀ place < width, left.testBit place = right.testBit place := by
      intro left right width same
      induction width with
      | zero => exact fun place below => absurd below (Nat.not_lt_zero _)
      | succ width ih =>
        rw [bits, bits, List.cons.injEq] at same
        intro place below
        rcases Nat.lt_succ_iff_lt_or_eq.mp below with under | rfl
        · exact ih same.2 place under
        · exact same.1
    exact each back place below
  · have large : 2 ^ width ≤ 2 ^ place := Nat.pow_le_pow_right (by decide) (not_lt.mp below)
    rw [Nat.testBit_lt_two_pow (bound.trans_le large), Nat.testBit_lt_two_pow (small.trans_le large)]

theorem bits_ones (width : Nat) : bits (2 ^ width - 1) width = List.replicate width true := by
  have each : ∀ count ≤ width, bits (2 ^ width - 1) count = List.replicate count true := by
    intro count
    induction count with
    | zero => exact fun _ => rfl
    | succ count ih =>
      intro within
      rw [bits, ih (Nat.le_of_succ_le within), Nat.testBit_two_pow_sub_one,
        decide_eq_true (Nat.lt_of_succ_le within), replicate_succ]
  exact each width le_rfl

def byteBits (byte : UInt8) : List Bool := bits byte.toNat 8

theorem byteBits_injective : Function.Injective byteBits := by
  intro left right same
  have values := congrArg bitsValue same
  rw [byteBits, byteBits, bitsValue_bits left.toNat_lt, bitsValue_bits right.toNat_lt] at values
  exact UInt8.toNat_inj.mp values

theorem length_flatMap_byteBits (bytes : Bytes) : (bytes.flatMap byteBits).length =
    8 * bytes.length := by
  induction bytes with
  | nil => rfl
  | cons byte bytes ih =>
    rw [List.flatMap_cons, List.length_append, ih, length_cons, byteBits, length_bits]
    omega

theorem flatMap_byteBits_injective {left right : Bytes}
    (same : left.flatMap byteBits = right.flatMap byteBits) : left = right := by
  induction left generalizing right with
  | nil =>
    have lengths := congrArg List.length same
    rw [length_flatMap_byteBits, length_flatMap_byteBits] at lengths
    exact (List.length_eq_zero_iff.mp (by simpa using lengths.symm)).symm
  | cons byte left ih =>
    cases right with
    | nil =>
      have lengths := congrArg List.length same
      rw [length_flatMap_byteBits, length_flatMap_byteBits] at lengths
      simp at lengths
    | cons other right =>
      rw [List.flatMap_cons, List.flatMap_cons] at same
      obtain ⟨here, rest⟩ := append_inj same (by rw [byteBits, byteBits, length_bits,
        length_bits])
      rw [byteBits_injective here, ih rest]

end SwStack.Lib

namespace SwStack.Lib

structure PrefixCode (σ : Type u) (ε : Type v) where
  word : σ → List ε
  nonempty : ∀ symbol, word symbol ≠ []
  prefixFree : ∀ {left right : σ}, word left <+: word right → left = right

namespace PrefixCode

variable {σ : Type u} {ε : Type v} (code : PrefixCode σ ε)

def spell (symbols : List σ) : List ε := symbols.flatMap code.word

/-- No word is complete yet. -/
def Open (digits : List ε) : Prop := ∀ symbol, ¬code.word symbol <+: digits

@[simp] theorem spell_nil : code.spell [] = [] := rfl

@[simp] theorem spell_cons (symbol : σ) (symbols : List σ) :
    code.spell (symbol :: symbols) = code.word symbol ++ code.spell symbols := List.flatMap_cons

theorem spell_append (left right : List σ) :
    code.spell (left ++ right) = code.spell left ++ code.spell right := List.flatMap_append

theorem open_nil : code.Open [] := fun symbol begins =>
  code.nonempty symbol (List.prefix_nil.mp begins)

variable {code}

/-- A word that is not read to its end has none before it. -/
theorem open_of_word (more : rest ≠ [])
    (whole : code.word symbol = digits ++ rest) : code.Open digits := by
  intro other begins
  have further : code.word other <+: code.word symbol := by
    rw [whole]
    exact begins.trans (List.prefix_append _ _)
  rw [code.prefixFree further, whole] at begins
  have length := begins.length_le
  rw [List.length_append] at length
  exact more (List.length_eq_zero_iff.mp (by omega))

theorem Open.of_append {digits rest : List ε} (whole : code.Open (digits ++ rest)) :
    code.Open digits :=
  fun symbol begins => whole symbol (begins.trans (List.prefix_append _ _))

end PrefixCode
end SwStack.Lib
