import SwStack.Lib.Bits

/-! The HPACK Huffman code. The encoder keeps the bits that do not fill a byte yet in a number;
the decoder looks up the bits since the last symbol as a number with a length. -/
namespace SwStack.Http3

open SwStack.Lib List

structure HuffmanCode where
  bits : Nat
  length : Nat
  deriving DecidableEq

def huffmanTable : List HuffmanCode :=
  [⟨0x1ff8, 13⟩, ⟨0x7fffd8, 23⟩, ⟨0xfffffe2, 28⟩, ⟨0xfffffe3, 28⟩, ⟨0xfffffe4, 28⟩,
  ⟨0xfffffe5, 28⟩, ⟨0xfffffe6, 28⟩, ⟨0xfffffe7, 28⟩, ⟨0xfffffe8, 28⟩, ⟨0xffffea, 24⟩,
  ⟨0x3ffffffc, 30⟩, ⟨0xfffffe9, 28⟩, ⟨0xfffffea, 28⟩, ⟨0x3ffffffd, 30⟩, ⟨0xfffffeb, 28⟩,
  ⟨0xfffffec, 28⟩, ⟨0xfffffed, 28⟩, ⟨0xfffffee, 28⟩, ⟨0xfffffef, 28⟩, ⟨0xffffff0, 28⟩,
  ⟨0xffffff1, 28⟩, ⟨0xffffff2, 28⟩, ⟨0x3ffffffe, 30⟩, ⟨0xffffff3, 28⟩, ⟨0xffffff4, 28⟩,
  ⟨0xffffff5, 28⟩, ⟨0xffffff6, 28⟩, ⟨0xffffff7, 28⟩, ⟨0xffffff8, 28⟩, ⟨0xffffff9, 28⟩,
  ⟨0xffffffa, 28⟩, ⟨0xffffffb, 28⟩, ⟨0x14, 6⟩, ⟨0x3f8, 10⟩, ⟨0x3f9, 10⟩, ⟨0xffa, 12⟩,
  ⟨0x1ff9, 13⟩, ⟨0x15, 6⟩, ⟨0xf8, 8⟩, ⟨0x7fa, 11⟩, ⟨0x3fa, 10⟩, ⟨0x3fb, 10⟩, ⟨0xf9, 8⟩,
  ⟨0x7fb, 11⟩, ⟨0xfa, 8⟩, ⟨0x16, 6⟩, ⟨0x17, 6⟩, ⟨0x18, 6⟩, ⟨0x0, 5⟩, ⟨0x1, 5⟩, ⟨0x2, 5⟩,
  ⟨0x19, 6⟩, ⟨0x1a, 6⟩, ⟨0x1b, 6⟩, ⟨0x1c, 6⟩, ⟨0x1d, 6⟩, ⟨0x1e, 6⟩, ⟨0x1f, 6⟩, ⟨0x5c, 7⟩,
  ⟨0xfb, 8⟩, ⟨0x7ffc, 15⟩, ⟨0x20, 6⟩, ⟨0xffb, 12⟩, ⟨0x3fc, 10⟩, ⟨0x1ffa, 13⟩, ⟨0x21, 6⟩,
  ⟨0x5d, 7⟩, ⟨0x5e, 7⟩, ⟨0x5f, 7⟩, ⟨0x60, 7⟩, ⟨0x61, 7⟩, ⟨0x62, 7⟩, ⟨0x63, 7⟩, ⟨0x64, 7⟩,
  ⟨0x65, 7⟩, ⟨0x66, 7⟩, ⟨0x67, 7⟩, ⟨0x68, 7⟩, ⟨0x69, 7⟩, ⟨0x6a, 7⟩, ⟨0x6b, 7⟩, ⟨0x6c, 7⟩,
  ⟨0x6d, 7⟩, ⟨0x6e, 7⟩, ⟨0x6f, 7⟩, ⟨0x70, 7⟩, ⟨0x71, 7⟩, ⟨0x72, 7⟩, ⟨0xfc, 8⟩, ⟨0x73, 7⟩,
  ⟨0xfd, 8⟩, ⟨0x1ffb, 13⟩, ⟨0x7fff0, 19⟩, ⟨0x1ffc, 13⟩, ⟨0x3ffc, 14⟩, ⟨0x22, 6⟩, ⟨0x7ffd, 15⟩,
  ⟨0x3, 5⟩, ⟨0x23, 6⟩, ⟨0x4, 5⟩, ⟨0x24, 6⟩, ⟨0x5, 5⟩, ⟨0x25, 6⟩, ⟨0x26, 6⟩, ⟨0x27, 6⟩, ⟨0x6, 5⟩,
  ⟨0x74, 7⟩, ⟨0x75, 7⟩, ⟨0x28, 6⟩, ⟨0x29, 6⟩, ⟨0x2a, 6⟩, ⟨0x7, 5⟩, ⟨0x2b, 6⟩, ⟨0x76, 7⟩,
  ⟨0x2c, 6⟩, ⟨0x8, 5⟩, ⟨0x9, 5⟩, ⟨0x2d, 6⟩, ⟨0x77, 7⟩, ⟨0x78, 7⟩, ⟨0x79, 7⟩, ⟨0x7a, 7⟩,
  ⟨0x7b, 7⟩, ⟨0x7ffe, 15⟩, ⟨0x7fc, 11⟩, ⟨0x3ffd, 14⟩, ⟨0x1ffd, 13⟩, ⟨0xffffffc, 28⟩,
  ⟨0xfffe6, 20⟩, ⟨0x3fffd2, 22⟩, ⟨0xfffe7, 20⟩, ⟨0xfffe8, 20⟩, ⟨0x3fffd3, 22⟩, ⟨0x3fffd4, 22⟩,
  ⟨0x3fffd5, 22⟩, ⟨0x7fffd9, 23⟩, ⟨0x3fffd6, 22⟩, ⟨0x7fffda, 23⟩, ⟨0x7fffdb, 23⟩, ⟨0x7fffdc, 23⟩,
  ⟨0x7fffdd, 23⟩, ⟨0x7fffde, 23⟩, ⟨0xffffeb, 24⟩, ⟨0x7fffdf, 23⟩, ⟨0xffffec, 24⟩, ⟨0xffffed, 24⟩,
  ⟨0x3fffd7, 22⟩, ⟨0x7fffe0, 23⟩, ⟨0xffffee, 24⟩, ⟨0x7fffe1, 23⟩, ⟨0x7fffe2, 23⟩, ⟨0x7fffe3, 23⟩,
  ⟨0x7fffe4, 23⟩, ⟨0x1fffdc, 21⟩, ⟨0x3fffd8, 22⟩, ⟨0x7fffe5, 23⟩, ⟨0x3fffd9, 22⟩, ⟨0x7fffe6, 23⟩,
  ⟨0x7fffe7, 23⟩, ⟨0xffffef, 24⟩, ⟨0x3fffda, 22⟩, ⟨0x1fffdd, 21⟩, ⟨0xfffe9, 20⟩, ⟨0x3fffdb, 22⟩,
  ⟨0x3fffdc, 22⟩, ⟨0x7fffe8, 23⟩, ⟨0x7fffe9, 23⟩, ⟨0x1fffde, 21⟩, ⟨0x7fffea, 23⟩, ⟨0x3fffdd, 22⟩,
  ⟨0x3fffde, 22⟩, ⟨0xfffff0, 24⟩, ⟨0x1fffdf, 21⟩, ⟨0x3fffdf, 22⟩, ⟨0x7fffeb, 23⟩, ⟨0x7fffec, 23⟩,
  ⟨0x1fffe0, 21⟩, ⟨0x1fffe1, 21⟩, ⟨0x3fffe0, 22⟩, ⟨0x1fffe2, 21⟩, ⟨0x7fffed, 23⟩, ⟨0x3fffe1, 22⟩,
  ⟨0x7fffee, 23⟩, ⟨0x7fffef, 23⟩, ⟨0xfffea, 20⟩, ⟨0x3fffe2, 22⟩, ⟨0x3fffe3, 22⟩, ⟨0x3fffe4, 22⟩,
  ⟨0x7ffff0, 23⟩, ⟨0x3fffe5, 22⟩, ⟨0x3fffe6, 22⟩, ⟨0x7ffff1, 23⟩, ⟨0x3ffffe0, 26⟩,
  ⟨0x3ffffe1, 26⟩, ⟨0xfffeb, 20⟩, ⟨0x7fff1, 19⟩, ⟨0x3fffe7, 22⟩, ⟨0x7ffff2, 23⟩, ⟨0x3fffe8, 22⟩,
  ⟨0x1ffffec, 25⟩, ⟨0x3ffffe2, 26⟩, ⟨0x3ffffe3, 26⟩, ⟨0x3ffffe4, 26⟩, ⟨0x7ffffde, 27⟩,
  ⟨0x7ffffdf, 27⟩, ⟨0x3ffffe5, 26⟩, ⟨0xfffff1, 24⟩, ⟨0x1ffffed, 25⟩, ⟨0x7fff2, 19⟩,
  ⟨0x1fffe3, 21⟩, ⟨0x3ffffe6, 26⟩, ⟨0x7ffffe0, 27⟩, ⟨0x7ffffe1, 27⟩, ⟨0x3ffffe7, 26⟩,
  ⟨0x7ffffe2, 27⟩, ⟨0xfffff2, 24⟩, ⟨0x1fffe4, 21⟩, ⟨0x1fffe5, 21⟩, ⟨0x3ffffe8, 26⟩,
  ⟨0x3ffffe9, 26⟩, ⟨0xffffffd, 28⟩, ⟨0x7ffffe3, 27⟩, ⟨0x7ffffe4, 27⟩, ⟨0x7ffffe5, 27⟩,
  ⟨0xfffec, 20⟩, ⟨0xfffff3, 24⟩, ⟨0xfffed, 20⟩, ⟨0x1fffe6, 21⟩, ⟨0x3fffe9, 22⟩, ⟨0x1fffe7, 21⟩,
  ⟨0x1fffe8, 21⟩, ⟨0x7ffff3, 23⟩, ⟨0x3fffea, 22⟩, ⟨0x3fffeb, 22⟩, ⟨0x1ffffee, 25⟩,
  ⟨0x1ffffef, 25⟩, ⟨0xfffff4, 24⟩, ⟨0xfffff5, 24⟩, ⟨0x3ffffea, 26⟩, ⟨0x7ffff4, 23⟩,
  ⟨0x3ffffeb, 26⟩, ⟨0x7ffffe6, 27⟩, ⟨0x3ffffec, 26⟩, ⟨0x3ffffed, 26⟩, ⟨0x7ffffe7, 27⟩,
  ⟨0x7ffffe8, 27⟩, ⟨0x7ffffe9, 27⟩, ⟨0x7ffffea, 27⟩, ⟨0x7ffffeb, 27⟩, ⟨0xffffffe, 28⟩,
  ⟨0x7ffffec, 27⟩, ⟨0x7ffffed, 27⟩, ⟨0x7ffffee, 27⟩, ⟨0x7ffffef, 27⟩, ⟨0x7fffff0, 27⟩,
  ⟨0x3ffffee, 26⟩, ⟨0x3fffffff, 30⟩]

def endOfString : Nat := 256

def huffmanCode (symbol : Nat) : HuffmanCode := huffmanTable.getD symbol ⟨0, 0⟩

structure HuffmanWriter where
  bitBuffer : Nat
  bitCount : Nat
  out : Bytes

/-- Writes whole bytes, as long as there are eight bits. -/
def emitBytes : Nat → HuffmanWriter → HuffmanWriter
  | 0, writer => writer
  | fuel + 1, writer =>
    if writer.bitCount < 8 then writer
    else
      let bitCount := writer.bitCount - 8
      emitBytes fuel
        { writer with
          bitCount
          out := writer.out ++ [UInt8.ofNat ((writer.bitBuffer >>> bitCount) &&& 0xff)] }

def writeSymbol (writer : HuffmanWriter) (symbol : UInt8) : HuffmanWriter :=
  let code := huffmanCode symbol.toNat
  let bitCount := writer.bitCount + code.length
  emitBytes bitCount
    { writer with
      bitBuffer := (writer.bitBuffer <<< code.length % 2 ^ 64) ||| code.bits
      bitCount }

def huffmanEncode (input : Bytes) : Bytes :=
  let writer := input.foldl writeSymbol { bitBuffer := 0, bitCount := 0, out := [] }
  if 0 < writer.bitCount then
    let pad := 8 - writer.bitCount
    let bitBuffer := (writer.bitBuffer <<< pad % 2 ^ 64) ||| (1 <<< pad - 1)
    writer.out ++ [UInt8.ofNat (bitBuffer &&& 0xff)]
  else writer.out

def lookupKey (length code : Nat) : Nat := (length <<< 32) ||| code

/-- The symbol entered last under a key. -/
def decodeLookup (key : Nat) : Option Nat :=
  (List.range 257).reverse.find? fun symbol =>
    lookupKey (huffmanCode symbol).length (huffmanCode symbol).bits = key

structure HuffmanReader where
  code : Nat
  length : Nat
  out : Bytes
  deriving DecidableEq

def huffmanOutputLimit : String := "HPACK Huffman output exceeds the configured limit"

def readBit (maxOutputBytes : Nat) (reader : HuffmanReader) (bit : Bool) :
    Except String HuffmanReader :=
  let code := (reader.code <<< 1 % 2 ^ 32) ||| bit.toNat
  let length := reader.length + 1
  if 30 < length then .error "HPACK Huffman code is invalid (no symbol within 30 bits)"
  else match decodeLookup (lookupKey length code) with
  | none => .ok { reader with code, length }
  | some symbol =>
    if symbol = endOfString then .error "HPACK Huffman stream contains an explicit EOS symbol"
    else if maxOutputBytes ≤ reader.out.length then .error huffmanOutputLimit
    else .ok { code := 0, length := 0, out := reader.out ++ [UInt8.ofNat symbol] }

def readByte (maxOutputBytes : Nat) (reader : HuffmanReader) (byte : UInt8) :
    Except String HuffmanReader :=
  [7, 6, 5, 4, 3, 2, 1, 0].foldlM (fun reader bit =>
    readBit maxOutputBytes reader (byte.toNat.testBit bit)) reader

def huffmanDecode (input : Bytes) (maxOutputBytes : Nat) : Except String Bytes := do
  let reader ← input.foldlM (readByte maxOutputBytes) { code := 0, length := 0, out := [] }
  if 0 < reader.length then
    if 7 < reader.length then .error "HPACK Huffman padding is longer than 7 bits"
    else if reader.code ≠ 1 <<< reader.length - 1 then
      .error "HPACK Huffman padding is not a prefix of EOS"
    else .ok reader.out
  else .ok reader.out

def HuffmanCode.word (code : HuffmanCode) : List Bool := Lib.bits code.bits code.length

/-- The 30-bit numbers that begin with a code: from the first on, below the second. -/
def HuffmanCode.span (code : HuffmanCode) : Nat × Nat :=
  (code.bits <<< (30 - code.length), (code.bits + 1) <<< (30 - code.length))

def spansApart : List (Nat × Nat) → Bool
  | [] => true
  | span :: spans =>
    spans.all (fun other => Nat.ble span.2 other.1 || Nat.ble other.2 span.1) && spansApart spans

theorem huffmanTable_length : huffmanTable.length = 257 := by decide +kernel

theorem huffmanTable_fits : ∀ code ∈ huffmanTable,
    0 < code.length ∧ code.length ≤ 30 ∧ code.bits < 2 ^ code.length := by decide +kernel

theorem huffmanTable_apart : spansApart (huffmanTable.map HuffmanCode.span) = true := by
  decide +kernel

theorem pairwise_of_spansApart (apart : spansApart spans = true) :
    spans.Pairwise fun left right => left.2 ≤ right.1 ∨ right.2 ≤ left.1 := by
  induction spans with
  | nil => exact .nil
  | cons span spans ih =>
    rw [spansApart, Bool.and_eq_true, all_eq_true] at apart
    refine .cons (fun other member => ?_) (ih apart.2)
    have here := apart.1 other member
    rw [Bool.or_eq_true, Nat.ble_eq, Nat.ble_eq] at here
    exact here

theorem huffmanCode_fits {symbol : Nat} (small : symbol < 257) :
    0 < (huffmanCode symbol).length ∧ (huffmanCode symbol).length ≤ 30 ∧
      (huffmanCode symbol).bits < 2 ^ (huffmanCode symbol).length := by
  have inside : symbol < huffmanTable.length := huffmanTable_length ▸ small
  rw [huffmanCode, getD_eq_getElem _ _ inside]
  exact huffmanTable_fits _ (getElem_mem inside)

theorem huffmanCode_apart {left right : Nat} (smallLeft : left < 257) (smallRight : right < 257)
    (distinct : left ≠ right) :
    (huffmanCode left).span.2 ≤ (huffmanCode right).span.1 ∨
      (huffmanCode right).span.2 ≤ (huffmanCode left).span.1 := by
  have pairwise := pairwise_map.mp (pairwise_of_spansApart huffmanTable_apart)
  rw [pairwise_iff_getElem] at pairwise
  have insideLeft : left < huffmanTable.length := huffmanTable_length ▸ smallLeft
  have insideRight : right < huffmanTable.length := huffmanTable_length ▸ smallRight
  rw [huffmanCode, huffmanCode, getD_eq_getElem _ _ insideLeft,
    getD_eq_getElem _ _ insideRight]
  rcases lt_or_gt_of_ne distinct with before | after
  · exact pairwise left right insideLeft insideRight before
  · exact (pairwise right left insideRight insideLeft after).symm

@[simp] theorem HuffmanCode.length_word (code : HuffmanCode) : code.word.length = code.length :=
  length_bits _ _

theorem HuffmanCode.span_of_prefix {left right : HuffmanCode}
    (fitsLeft : left.bits < 2 ^ left.length) (fitsRight : right.bits < 2 ^ right.length)
    (short : right.length ≤ 30) (begins : left.word <+: right.word) :
    left.span.1 ≤ right.span.1 ∧ right.span.2 ≤ left.span.2 := by
  have within : left.length ≤ right.length := by simpa using begins.length_le
  obtain ⟨more, split⟩ := Nat.exists_eq_add_of_le within
  obtain ⟨rest, whole⟩ := begins
  have top : Lib.bits left.bits left.length = Lib.bits (right.bits >>> more) left.length := by
    unfold word at whole
    rw [split, bits_add] at whole
    exact (append_inj whole (by rw [length_bits, length_bits])).1
  have shifted : left.bits = right.bits / 2 ^ more := by
    have values := congrArg bitsValue top
    rw [Nat.shiftRight_eq_div_pow] at values
    rwa [bitsValue_bits fitsLeft, bitsValue_bits] at values
    rw [Nat.div_lt_iff_lt_mul (Nat.two_pow_pos _), ← Nat.pow_add, ← split]
    exact fitsRight
  have scale : 2 ^ (30 - left.length) = 2 ^ more * 2 ^ (30 - right.length) := by
    rw [← Nat.pow_add]
    congr 1
    omega
  have low := Nat.div_mul_le_self right.bits (2 ^ more)
  have high := Nat.lt_mul_div_succ right.bits (Nat.two_pow_pos more)
  rw [← shifted] at low high
  rw [Nat.mul_comm] at high
  simp only [span, Nat.shiftLeft_eq, scale, ← Nat.mul_assoc]
  exact ⟨Nat.mul_le_mul_right _ low, Nat.mul_le_mul_right _ high⟩

theorem HuffmanCode.span_lt (code : HuffmanCode) : code.span.1 < code.span.2 := by
  simp only [span, Nat.shiftLeft_eq]
  exact Nat.mul_lt_mul_of_pos_right (Nat.lt_succ_self _) (Nat.two_pow_pos _)

def huffman : PrefixCode (Fin 257) Bool where
  word symbol := (huffmanCode symbol).word
  nonempty symbol empty := by
    have filled := (huffmanCode_fits symbol.isLt).1
    have length := congrArg List.length empty
    rw [HuffmanCode.length_word, length_nil] at length
    omega
  prefixFree {left right} begins := by
    by_contra distinct
    obtain ⟨-, -, fitsLeft⟩ := huffmanCode_fits left.isLt
    obtain ⟨-, short, fitsRight⟩ := huffmanCode_fits right.isLt
    have spanned := HuffmanCode.span_of_prefix fitsLeft fitsRight short begins
    have first := (huffmanCode left).span_lt
    have second := (huffmanCode right).span_lt
    rcases huffmanCode_apart left.isLt right.isLt (Fin.val_ne_iff.mpr distinct) with apart | apart
    · omega
    · omega

theorem huffman_word (symbol : Fin 257) : huffman.word symbol = (huffmanCode symbol).word := rfl

def symbolOf (byte : UInt8) : Fin 257 := ⟨byte.toNat, byte.toNat_lt.trans (by decide)⟩

def huffmanSpell (input : Bytes) : List Bool := huffman.spell (input.map symbolOf)

theorem ofNat_symbolOf {symbol : Fin 257} (byte : symbol.val ≠ endOfString) :
    symbolOf (UInt8.ofNat symbol) = symbol := by
  have small : symbol.val < 256 := by
    have bound := symbol.isLt
    unfold endOfString at byte
    omega
  apply Fin.ext
  change (UInt8.ofNat symbol.val).toNat = symbol.val
  rw [UInt8.toNat_ofNat', Nat.mod_eq_of_lt small]

theorem bits_push {high low count : Nat} (width : Nat) (small : low < 2 ^ count)
    (fits : width + count ≤ 64) :
    bits ((high <<< count % 2 ^ 64) ||| low) (width + count) =
      bits high width ++ bits low count := by
  have same : ((high <<< count % 2 ^ 64) ||| low) % 2 ^ 64 =
      ((high <<< count) ||| low) % 2 ^ 64 := by
    rw [Nat.or_mod_two_pow, Nat.or_mod_two_pow, Nat.mod_mod]
  rw [← bits_mod fits, same, bits_mod fits, bits_shift_or width count small]

theorem byteBits_and (value : Nat) : byteBits (UInt8.ofNat (value &&& 0xff)) = bits value 8 := by
  rw [byteBits, UInt8.toNat_ofNat', bits_mod le_rfl]
  exact bits_and_mask value 8

def HuffmanWriter.digits (writer : HuffmanWriter) : List Bool :=
  writer.out.flatMap byteBits ++ bits writer.bitBuffer writer.bitCount

theorem emitBytes_digits {fuel : Nat} {writer : HuffmanWriter}
    (enough : writer.bitCount < 8 * fuel + 8) :
    (emitBytes fuel writer).digits = writer.digits ∧ (emitBytes fuel writer).bitCount < 8 := by
  induction fuel generalizing writer with
  | zero => exact ⟨rfl, by simpa [emitBytes] using enough⟩
  | succ fuel ih =>
    rw [emitBytes]
    split
    · exact ⟨rfl, by assumption⟩
    rename_i full
    obtain ⟨rest, split⟩ := Nat.exists_eq_add_of_le (not_lt.mp full)
    have less : writer.bitCount - 8 < 8 * fuel + 8 := by omega
    obtain ⟨same, below⟩ := @ih
      { writer with
        bitCount := writer.bitCount - 8
        out := writer.out ++
          [UInt8.ofNat ((writer.bitBuffer >>> (writer.bitCount - 8)) &&& 0xff)] } less
    refine ⟨same.trans ?_, below⟩
    simp only [HuffmanWriter.digits, flatMap_append, flatMap_cons, flatMap_nil,
      append_nil, byteBits_and, append_assoc]
    rw [split, Nat.add_sub_cancel_left, bits_add]

theorem writeSymbol_digits (symbol : UInt8) (below : writer.bitCount < 8) :
    (writeSymbol writer symbol).digits = writer.digits ++ huffman.word (symbolOf symbol) ∧
      (writeSymbol writer symbol).bitCount < 8 := by
  obtain ⟨-, short, fits⟩ := huffmanCode_fits (symbolOf symbol).isLt
  have value : (symbolOf symbol).val = symbol.toNat := rfl
  rw [value] at short fits
  unfold writeSymbol
  dsimp only
  obtain ⟨same, under⟩ := @emitBytes_digits (writer.bitCount + (huffmanCode symbol.toNat).length)
    { writer with
      bitBuffer := (writer.bitBuffer <<< (huffmanCode symbol.toNat).length % 2 ^ 64) |||
        (huffmanCode symbol.toNat).bits
      bitCount := writer.bitCount + (huffmanCode symbol.toNat).length } (by dsimp only; omega)
  refine ⟨same.trans ?_, under⟩
  unfold HuffmanWriter.digits
  dsimp only
  rw [bits_push _ fits (by omega), append_assoc]
  rfl

theorem writeSymbols_digits (input : Bytes) {writer : HuffmanWriter}
    (below : writer.bitCount < 8) :
    (input.foldl writeSymbol writer).digits = writer.digits ++ huffmanSpell input ∧
      (input.foldl writeSymbol writer).bitCount < 8 := by
  induction input generalizing writer with
  | nil => exact ⟨(append_nil _).symm, below⟩
  | cons symbol input ih =>
    obtain ⟨written, under⟩ := writeSymbol_digits symbol below
    obtain ⟨same, last⟩ := ih under
    refine ⟨?_, last⟩
    rw [foldl_cons, same, written, append_assoc]
    rfl

theorem huffmanEncode_bits (input : Bytes) : ∃ pad < 8,
    (huffmanEncode input).flatMap byteBits = huffmanSpell input ++ List.replicate pad true := by
  obtain ⟨written, below⟩ := @writeSymbols_digits input ⟨0, 0, []⟩ (by decide)
  have start : HuffmanWriter.digits ⟨0, 0, []⟩ = [] := rfl
  rw [start, nil_append] at written
  unfold huffmanEncode
  dsimp only
  split
  · refine ⟨8 - (input.foldl writeSymbol ⟨0, 0, []⟩).bitCount, by omega, ?_⟩
    rw [flatMap_append, flatMap_cons, flatMap_nil, append_nil, byteBits_and,
      ← written, HuffmanWriter.digits, append_assoc, ← bits_ones, Nat.one_shiftLeft]
    congr 1
    have whole : (input.foldl writeSymbol ⟨0, 0, []⟩).bitCount +
        (8 - (input.foldl writeSymbol ⟨0, 0, []⟩).bitCount) = 8 := by omega
    have ones (pad : Nat) : 2 ^ pad - 1 < 2 ^ pad := Nat.sub_lt (Nat.two_pow_pos _) Nat.one_pos
    rw [← bits_push _ (ones _) (by omega), whole]
  · have absent : (input.foldl writeSymbol ⟨0, 0, []⟩).bitCount = 0 := by omega
    refine ⟨0, by decide, ?_⟩
    rw [← written, HuffmanWriter.digits, absent]
    simp [bits]

theorem lookupKey_eq {length code : Nat} (small : code < 2 ^ 32) :
    lookupKey length code = length * 2 ^ 32 + code := by
  rw [lookupKey, ← Nat.shiftLeft_add_eq_or_of_lt small, Nat.shiftLeft_eq]

variable {digits : List Bool}

theorem lookupKey_huffmanCode {symbol : Nat} (inside : symbol < 257) (short : digits.length ≤ 30) :
    lookupKey (huffmanCode symbol).length (huffmanCode symbol).bits =
      lookupKey digits.length (bitsValue digits) ↔ (huffmanCode symbol).word = digits := by
  obtain ⟨-, within, fits⟩ := huffmanCode_fits inside
  have wide {count : Nat} (few : count ≤ 30) : 2 ^ count ≤ 2 ^ 32 :=
    Nat.pow_le_pow_right (by decide) (by omega)
  have smallCode := fits.trans_le (wide within)
  have smallDigits := (bitsValue_lt digits).trans_le (wide short)
  rw [lookupKey_eq smallCode, lookupKey_eq smallDigits]
  constructor
  · intro same
    have lengths : (huffmanCode symbol).length = digits.length := by omega
    have values : (huffmanCode symbol).bits = bitsValue digits := by omega
    rw [HuffmanCode.word, lengths, values, bits_bitsValue]
  · rintro rfl
    rw [HuffmanCode.length_word, HuffmanCode.word, bitsValue_bits fits]

theorem decodeLookup_word (symbol : Fin 257) :
    decodeLookup (lookupKey (huffman.word symbol).length (bitsValue (huffman.word symbol))) =
      some symbol.val := by
  have short : (huffman.word symbol).length ≤ 30 := by
    rw [huffman_word, HuffmanCode.length_word]
    exact (huffmanCode_fits symbol.isLt).2.1
  have isFound := (lookupKey_huffmanCode symbol.isLt short).mpr rfl
  cases found : decodeLookup (lookupKey (huffman.word symbol).length
    (bitsValue (huffman.word symbol))) with
  | none =>
    have missing := find?_eq_none.mp found symbol.val
      (mem_reverse.mpr (mem_range.mpr symbol.isLt))
    exact absurd (decide_eq_true isFound) missing
  | some other =>
    unfold decodeLookup at found
    have inside : other < 257 :=
      mem_range.mp (mem_reverse.mp (mem_of_find?_eq_some found))
    have holds := find?_some found
    have same := (lookupKey_huffmanCode inside short).mp (of_decide_eq_true holds)
    have equal : (⟨other, inside⟩ : Fin 257) = symbol :=
      huffman.prefixFree (show (huffmanCode other).word <+: huffman.word symbol from same ▸
        prefix_rfl)
    rw [← equal]

theorem decodeLookup_none (short : digits.length ≤ 30)
    (noWord : ∀ symbol, huffman.word symbol ≠ digits) :
    decodeLookup (lookupKey digits.length (bitsValue digits)) = none := by
  refine find?_eq_none.mpr fun symbol member found => ?_
  have inside := mem_range.mp (mem_reverse.mp member)
  exact noWord ⟨symbol, inside⟩
    ((lookupKey_huffmanCode inside short).mp (of_decide_eq_true found))

/-- The reader has these bits of a code that is not complete. -/
def HuffmanReader.Holds (reader : HuffmanReader) (pending : List Bool) : Prop :=
  reader.code = bitsValue pending ∧ reader.length = pending.length

variable {reader : HuffmanReader} {pending : List Bool}

theorem HuffmanReader.Holds.code_push
    (holds : reader.Holds pending) (bit : Bool) (short : pending.length ≤ 30) :
    (reader.code <<< 1 % 2 ^ 32) ||| bit.toNat = bitsValue (pending ++ [bit]) := by
  have small := (bitsValue_lt pending).trans_le
    (Nat.pow_le_pow_right (by decide) short : 2 ^ pending.length ≤ 2 ^ 30)
  have low : bit.toNat < 2 ^ 1 := Bool.toNat_lt bit
  rw [holds.1, bitsValue_append, Nat.mod_eq_of_lt (by rw [Nat.shiftLeft_eq]; omega),
    ← Nat.shiftLeft_add_eq_or_of_lt low, Nat.shiftLeft_eq]
  omega

theorem readBit_word {bit : Bool} {symbol : Fin 257} (max : Nat) (holds : reader.Holds pending)
    (word : huffman.word symbol = pending ++ [bit]) :
    readBit max reader bit =
      if symbol.val = endOfString then
        .error "HPACK Huffman stream contains an explicit EOS symbol"
      else if max ≤ reader.out.length then .error huffmanOutputLimit
      else .ok { code := 0, length := 0, out := reader.out ++ [UInt8.ofNat symbol] } := by
  have length : (huffman.word symbol).length = pending.length + 1 := by
    rw [word, length_append, length_singleton]
  have short : (huffman.word symbol).length ≤ 30 := by
    rw [huffman_word, HuffmanCode.length_word]
    exact (huffmanCode_fits symbol.isLt).2.1
  have found := decodeLookup_word symbol
  unfold readBit
  dsimp only
  rw [holds.code_push bit (by omega), holds.2, if_neg (by omega), ← length, ← word, found]

theorem readBit_open {bit : Bool} (max : Nat)
    (holds : reader.Holds pending) (short : (pending ++ [bit]).length ≤ 30)
    (noWord : ∀ symbol, huffman.word symbol ≠ pending ++ [bit]) :
    readBit max reader bit = .ok
      { reader with
        code := bitsValue (pending ++ [bit])
        length := (pending ++ [bit]).length } := by
  have length : (pending ++ [bit]).length = pending.length + 1 := by simp
  have missing := decodeLookup_none short noWord
  unfold readBit
  dsimp only
  rw [holds.code_push bit (by omega), holds.2, if_neg (by omega), ← length, missing]

/-- The bits that begin a code are kept until it is complete. -/
theorem readBits_open {symbol : Fin 257} {rest : List Bool} (max : Nat) (more : rest ≠ [])
    (digits : List Bool) {reader : HuffmanReader} {pending : List Bool}
    (holds : reader.Holds pending) (word : huffman.word symbol = pending ++ digits ++ rest) :
    ∃ next, digits.foldlM (readBit max) reader = .ok next ∧ next.Holds (pending ++ digits) ∧
      next.out = reader.out := by
  induction digits generalizing reader pending with
  | nil => exact ⟨reader, rfl, by rwa [append_nil], rfl⟩
  | cons bit digits ih =>
    rw [append_cons] at word
    have length := congrArg List.length word
    rw [length_append, length_append, huffman_word, HuffmanCode.length_word] at length
    have within := (huffmanCode_fits symbol.isLt).2.1
    have unfinished : huffman.Open (pending ++ [bit]) :=
      (PrefixCode.open_of_word more word).of_append
    have step := readBit_open max holds (by omega) fun other same =>
      unfinished other (same ▸ prefix_rfl)
    obtain ⟨next, ran, held, out⟩ := @ih
      { reader with
        code := bitsValue (pending ++ [bit])
        length := (pending ++ [bit]).length } _ ⟨rfl, rfl⟩ word
    refine ⟨next, ?_, by rwa [append_cons], out⟩
    rw [foldlM_cons, step]
    exact ran

theorem readBits_symbol (max : Nat) (byte : UInt8) (out : Bytes) :
    (huffman.word (symbolOf byte)).foldlM (readBit max) { code := 0, length := 0, out } =
      if max ≤ out.length then .error huffmanOutputLimit
      else .ok { code := 0, length := 0, out := out ++ [byte] } := by
  have ended := dropLast_append_getLast (huffman.nonempty (symbolOf byte))
  obtain ⟨next, ran, held, same⟩ := @readBits_open (symbolOf byte) _ max (cons_ne_nil _ [])
    (huffman.word (symbolOf byte)).dropLast ⟨0, 0, out⟩ [] ⟨rfl, rfl⟩ ended.symm
  rw [nil_append] at held
  have notEnd : (symbolOf byte).val ≠ endOfString := Nat.ne_of_lt byte.toNat_lt
  have value : UInt8.ofNat (symbolOf byte).val = byte := UInt8.ofNat_toNat
  rw [← ended, foldlM_append, ran]
  change List.foldlM (readBit max) next [_] = _
  rw [foldlM_cons, readBit_word max held ended.symm, if_neg notEnd, same, value]
  split <;> rfl

theorem readBits_spell (max : Nat) (input : Bytes) {out : Bytes} (within : out.length ≤ max) :
    (huffmanSpell input).foldlM (readBit max) { code := 0, length := 0, out } =
      if out.length + input.length ≤ max then
        .ok { code := 0, length := 0, out := out ++ input }
      else .error huffmanOutputLimit := by
  induction input generalizing out with
  | nil =>
    rw [if_pos (by simpa using within), append_nil]
    rfl
  | cons byte input ih =>
    unfold huffmanSpell at ih ⊢
    rw [map_cons, PrefixCode.spell_cons, foldlM_append, readBits_symbol]
    by_cases full : max ≤ out.length
    · rw [if_pos full, if_neg (by rw [length_cons]; omega)]
      rfl
    · have rest := @ih (out ++ [byte]) (by rw [length_append, length_singleton]; omega)
      rw [if_neg full]
      change List.foldlM (readBit max) _ _ = _
      rw [rest, length_append, length_singleton, length_cons, append_assoc,
        singleton_append, Nat.add_assoc, Nat.add_comm 1]

theorem readByte_eq (max : Nat) (reader : HuffmanReader) (byte : UInt8) :
    readByte max reader byte = (byteBits byte).foldlM (readBit max) reader := rfl

theorem readBytes_eq (max : Nat) (input : Bytes) (reader : HuffmanReader) :
    input.foldlM (readByte max) reader =
      (input.flatMap byteBits).foldlM (readBit max) reader := by
  induction input generalizing reader with
  | nil => rfl
  | cons byte input ih =>
    rw [foldlM_cons, readByte_eq, flatMap_cons, foldlM_append]
    congr 1
    funext next
    exact ih next

theorem endOfString_word : huffman.word ⟨endOfString, by decide⟩ = List.replicate 30 true := by
  decide +kernel

/-- What was encoded is decoded again, if the limit allows. -/
theorem huffmanDecode_encode (input : Bytes) (max : Nat) :
    huffmanDecode (huffmanEncode input) max =
      if input.length ≤ max then .ok input else .error huffmanOutputLimit := by
  obtain ⟨pad, few, written⟩ := huffmanEncode_bits input
  have spelled := @readBits_spell max input [] (Nat.zero_le _)
  rw [length_nil, Nat.zero_add, nil_append] at spelled
  unfold huffmanDecode
  rw [readBytes_eq, written, foldlM_append, spelled]
  by_cases fits : input.length ≤ max
  · rw [if_pos fits, if_pos fits]
    have ones : huffman.word ⟨endOfString, by decide⟩ =
        [] ++ List.replicate pad true ++ List.replicate (30 - pad) true := by
      rw [endOfString_word, nil_append, replicate_append_replicate]
      congr 1
      omega
    have more : List.replicate (30 - pad) true ≠ [] := by
      intro empty
      have length := congrArg List.length empty
      rw [length_replicate, length_nil] at length
      omega
    obtain ⟨next, ran, held, out⟩ := @readBits_open _ _ max more (List.replicate pad true)
      ⟨0, 0, input⟩ [] ⟨rfl, rfl⟩ ones
    have padded : next.length = pad := by
      rw [held.2, nil_append, length_replicate]
    have code : next.code = 1 <<< next.length - 1 := by
      rw [held.1, nil_append, padded, Nat.one_shiftLeft, ← bits_ones, bitsValue_bits]
      exact Nat.sub_lt (Nat.two_pow_pos _) Nat.one_pos
    change (List.foldlM (readBit max) ⟨0, 0, input⟩ _ >>= _) = _
    rw [ran]
    change (if _ then _ else _) = _
    rw [out, padded, if_neg (by omega : ¬7 < pad), ← padded, if_neg (not_not_intro code), ite_self]
  · rw [if_neg fits, if_neg fits]
    rfl

/-- The reader has spelled these bits out, up to what it holds. -/
def HuffmanReader.Spelled (reader : HuffmanReader) (digits : List Bool) : Prop :=
  ∃ pending, reader.Holds pending ∧ huffman.Open pending ∧
    huffmanSpell reader.out ++ pending = digits

theorem readBit_spelled {max : Nat} {next : HuffmanReader}
    {bit : Bool} (spelled : reader.Spelled digits)
    (step : readBit max reader bit = .ok next) : next.Spelled (digits ++ [bit]) := by
  obtain ⟨pending, holds, unfinished, rfl⟩ := spelled
  have short : (pending ++ [bit]).length ≤ 30 := by
    by_contra long
    rw [length_append, length_singleton] at long
    unfold readBit at step
    dsimp only at step
    rw [holds.2, if_pos (by omega)] at step
    cases step
  by_cases complete : ∃ symbol, huffman.word symbol = pending ++ [bit]
  · obtain ⟨symbol, word⟩ := complete
    rw [readBit_word max holds word] at step
    split at step
    · cases step
    split at step
    · cases step
    rename_i notEnd _
    cases step
    refine ⟨[], ⟨rfl, rfl⟩, huffman.open_nil, ?_⟩
    rw [huffmanSpell, map_append, PrefixCode.spell_append, map_cons, map_nil,
      PrefixCode.spell_cons, PrefixCode.spell_nil, ofNat_symbolOf notEnd, word]
    simp [huffmanSpell]
  · rw [readBit_open max holds short fun symbol same => complete ⟨symbol, same⟩] at step
    cases step
    refine ⟨pending ++ [bit], ⟨rfl, rfl⟩, fun symbol begins => ?_, by rw [append_assoc]⟩
    rcases prefix_concat_iff.mp begins with same | under
    · exact complete ⟨symbol, same⟩
    · exact unfinished symbol under

theorem readBits_spelled {max : Nat} (more : List Bool) {next : HuffmanReader}
    (spelled : reader.Spelled digits)
    (ran : more.foldlM (readBit max) reader = .ok next) : next.Spelled (digits ++ more) := by
  induction more generalizing reader digits with
  | nil =>
    cases ran
    rwa [append_nil]
  | cons bit more ih =>
    rw [foldlM_cons] at ran
    cases step : readBit max reader bit with
    | error problem =>
      rw [step] at ran
      cases ran
    | ok middle =>
      rw [step] at ran
      rw [append_cons]
      exact ih (readBit_spelled spelled step) ran

theorem huffmanEncode_decode {input output : Bytes} {max : Nat}
    (decoded : huffmanDecode input max = .ok output) : huffmanEncode output = input := by
  unfold huffmanDecode at decoded
  rw [readBytes_eq] at decoded
  cases ran : (input.flatMap byteBits).foldlM (readBit max) ⟨0, 0, []⟩ with
  | error problem =>
    rw [ran] at decoded
    cases decoded
  | ok reader =>
    rw [ran] at decoded
    have start : HuffmanReader.Spelled ⟨0, 0, []⟩ [] :=
      ⟨[], ⟨rfl, rfl⟩, huffman.open_nil, rfl⟩
    obtain ⟨pending, holds, -, spelled⟩ := readBits_spelled _ start ran
    change (if _ then _ else _) = _ at decoded
    have ended : pending = List.replicate reader.length true ∧ reader.length < 8 ∧
        reader.out = output := by
      by_cases padded : 0 < reader.length
      · rw [if_pos padded] at decoded
        split at decoded
        · cases decoded
        split at decoded
        · cases decoded
        rename_i few ones
        cases decoded
        refine ⟨?_, by omega, rfl⟩
        rw [← bits_bitsValue pending, ← holds.1, ← holds.2, not_not.mp ones, Nat.one_shiftLeft,
          bits_ones]
      · rw [if_neg padded] at decoded
        cases decoded
        have absent : reader.length = 0 := by omega
        refine ⟨?_, by omega, rfl⟩
        rw [absent, replicate_zero]
        exact length_eq_zero_iff.mp (holds.2.symm.trans absent)
    obtain ⟨ones, few, rfl⟩ := ended
    obtain ⟨pad, less, written⟩ := huffmanEncode_bits reader.out
    rw [ones, nil_append] at spelled
    -- both paddings are shorter than a byte and end at one, so they are the same
    have lengthRead := congrArg List.length spelled
    have lengthWritten := congrArg List.length written
    rw [length_flatMap_byteBits, length_append, length_replicate] at lengthRead
    rw [length_flatMap_byteBits, length_append, length_replicate] at lengthWritten
    have same : pad = reader.length := by omega
    apply flatMap_byteBits_injective
    rw [written, same, spelled]

/-- Decoding without a limit of its own, up to what a `size_t` counts. -/
def huffmanDecodeAll (input : Bytes) : Except String Bytes := huffmanDecode input (2 ^ 64 - 1)

/-- Decoding undoes encoding, and what any decoding accepts is the encoding of its result: the
codes of its bytes with less than a byte of ones after them. -/
theorem huffman_roundTrip {input : Bytes} (addressable : input.length < 2 ^ 64) :
    huffmanDecodeAll (huffmanEncode input) = .ok input ∧
    ∀ (encoded output : Bytes) (max : Nat), huffmanDecode encoded max = .ok output →
      huffmanEncode output = encoded ∧ ∃ pad < 8,
        encoded.flatMap byteBits = huffmanSpell output ++ List.replicate pad true := by
  constructor
  · rw [huffmanDecodeAll, huffmanDecode_encode, if_pos (Nat.le_sub_one_of_lt addressable)]
  · intro encoded output max decoded
    have canonical := huffmanEncode_decode decoded
    have written := huffmanEncode_bits output
    rw [canonical] at written
    exact ⟨canonical, written⟩

/-- The word "abc". -/
theorem huffman_roundTrip_word :
    huffmanEncode [0x61, 0x62, 0x63] = [0x1c, 0x64] ∧
      huffmanDecodeAll (huffmanEncode [0x61, 0x62, 0x63]) = .ok [0x61, 0x62, 0x63] :=
  ⟨by decide, (huffman_roundTrip (by decide)).1⟩

end SwStack.Http3
