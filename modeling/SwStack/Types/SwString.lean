import SwStack.Types.ByteArray

/-! Strings are bytes of any value, the NUL included; what a `const char *` shows of one ends at
the first NUL. -/
namespace SwStack.Types

open SwStack.Lib

/-- The bytes of a literal of the source. -/
def ascii (literal : String) : Bytes :=
  literal.toList.map fun character => UInt8.ofNat character.toNat

namespace SwString

def isBlank (byte : UInt8) : Bool := byte = 0x20 || byte = 0x09 || byte = 0x0a || byte = 0x0d

def trimmed (text : Bytes) : Bytes :=
  ((text.dropWhile isBlank).reverse.dropWhile isBlank).reverse

theorem trimmed_trimmed (text : Bytes) : trimmed (trimmed text) = trimmed text := by
  have front : (trimmed text).dropWhile isBlank = trimmed text := by
    rw [List.dropWhile_eq_self_iff]
    intro filled
    obtain ⟨rest, split⟩ : trimmed text <+: text.dropWhile isBlank := List.rdropWhile_prefix _ _
    have held := List.length_pos_iff.mp filled
    have nonempty : text.dropWhile isBlank ≠ [] :=
      split ▸ List.append_ne_nil_of_left_ne_nil held rest
    have first := List.head_dropWhile_not isBlank nonempty
    simp only [← split, List.head_append_of_ne_nil held] at first
    rw [← List.head_eq_getElem_zero held, first]
    exact Bool.false_ne_true
  rw [trimmed, front]
  exact List.rdropWhile_idempotent _ _

def lowerByte (byte : UInt8) : UInt8 := if 0x41 ≤ byte ∧ byte ≤ 0x5a then byte + 0x20 else byte

def toLower (text : Bytes) : Bytes := text.map lowerByte

/-- `SwByteArray(text.toUtf8())`, which measures the characters with `strlen`. -/
def toUtf8 (text : Bytes) : Bytes := text.takeWhile fun byte => byte ≠ 0

def startsWith (text front : Bytes) : Bool := front.isPrefixOf text

theorem toUtf8_append (text more : Bytes) (plain : 0 ∉ text) :
    toUtf8 (text ++ more) = text ++ toUtf8 more := by
  rw [toUtf8, List.takeWhile_append_of_pos]
  · rfl
  · intro byte member
    rw [decide_eq_true_iff]
    rintro rfl
    exact plain member

theorem toUtf8_of_plain (plain : 0 ∉ text) : toUtf8 text = text := by
  have whole := toUtf8_append text [] plain
  rwa [List.append_nil, toUtf8, toUtf8, List.takeWhile_nil, List.append_nil] at whole

end SwString

def lowerHexDigit (value : Nat) : UInt8 :=
  if value < 10 then UInt8.ofNat (0x30 + value) else UInt8.ofNat (0x61 + (value - 10))

def toHex (bytes : Bytes) : Bytes :=
  bytes.flatMap fun byte => [lowerHexDigit (byte.toNat / 16), lowerHexDigit (byte.toNat % 16)]

/-- Sixteen hexadecimal digits of a 64-bit number. -/
def hexWidth64 (value : UInt64) : Bytes :=
  (List.range 16).map fun place => lowerHexDigit (value.toNat / 16 ^ (15 - place) % 16)

end SwStack.Types
