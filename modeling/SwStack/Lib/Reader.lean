import Mathlib

/-! Readers that consume a prefix of their input, and the little-endian numbers
and length-prefixed lists they are used on. `Reads` is the round-trip judgment:
it holds with any remaining input present, so it composes along `bind`. -/
namespace SwStack.Lib

abbrev Bytes := List UInt8

instance : LawfulBEq Bytes := inferInstanceAs (LawfulBEq (List UInt8))

/-- What holds of every byte is found by trying them all. -/
theorem forall_byte {holds : UInt8 → Prop} (all : ∀ value : Fin 256, holds (.ofNat value)) :
    ∀ byte, holds byte := by
  intro byte
  have here := all ⟨byte.toNat, byte.toNat_lt⟩
  rwa [UInt8.ofNat_toNat] at here

instance instLinearOrderUInt8 : LinearOrder UInt8 where
  le_refl _ := UInt8.le_refl _
  le_trans _ _ _ := UInt8.le_trans
  le_antisymm _ _ := UInt8.le_antisymm
  le_total := UInt8.le_total
  lt_iff_le_not_ge _ _ := by
    simp only [UInt8.le_iff_toNat_le, UInt8.lt_iff_toNat_lt]
    omega
  toDecidableLE := inferInstance

def Reader (σ : Type u) (α : Type v) := List σ → Option (α × List σ)

namespace Reader

variable {σ : Type u} {α β : Type v}

instance : Monad (Reader σ) where
  pure value := fun input => some (value, input)
  bind reader next := fun input => (reader input).bind fun result => next result.1 result.2

def fail : Reader σ α := fun _ => none

def take (count : Nat) : Reader σ (List σ) := fun input =>
  if count ≤ input.length then some (input.take count, input.drop count) else none

def times (reader : Reader σ α) : Nat → Reader σ (List α)
  | 0 => pure []
  | count + 1 => do
    let value ← reader
    let values ← times reader count
    pure (value :: values)

def Reads (reader : Reader σ α) (input : List σ) (value : α) : Prop :=
  ∀ rest, reader (input ++ rest) = some (value, rest)

theorem bind_apply (reader : Reader σ α) (next : α → Reader σ β) (input : List σ) :
    (reader >>= next) input = (reader input).bind fun result => next result.1 result.2 := rfl

namespace Reads

theorem pure (value : α) : Reads (Pure.pure value : Reader σ α) [] value := fun _ => rfl

theorem bind (first : Reads reader input value) (second : Reads (next value) tail result) :
    Reads (reader >>= next) (input ++ tail) result := by
  intro rest
  rw [List.append_assoc, bind_apply, first, Option.bind_some, second]

/-- A reader that consumes nothing more after `reader`. -/
theorem bind_pure (first : Reads reader input value) (finish : α → β) :
    Reads (reader >>= fun value => Pure.pure (finish value)) input (finish value) := by
  intro rest
  rw [bind_apply, first]
  rfl

theorem take {input : List σ} (length : input.length = count) :
    Reads (Reader.take count) input input := by
  intro rest
  subst length
  simp [Reader.take]

theorem times {reader : Reader σ α} {encode : α → List σ} {values : List α}
    (each : ∀ value ∈ values, Reads reader (encode value) value) :
    Reads (reader.times values.length) (values.flatMap encode) values := by
  induction values with
  | nil => exact .pure []
  | cons value values ih =>
    have first := each value List.mem_cons_self
    have rest := ih fun value member => each value (List.mem_cons_of_mem _ member)
    exact first.bind (rest.bind_pure (value :: ·))

end Reads

end Reader

def littleEndian (value : Nat) : Nat → Bytes
  | 0 => []
  | width + 1 => UInt8.ofNat value :: littleEndian (value / 256) width

def littleEndianValue (bytes : Bytes) : Nat :=
  bytes.foldr (fun byte rest => byte.toNat + 256 * rest) 0

@[simp] theorem length_littleEndian (value width : Nat) :
    (littleEndian value width).length = width := by
  induction width generalizing value with
  | zero => rfl
  | succ width ih => simp [littleEndian, ih]

theorem littleEndianValue_littleEndian (fits : value < 256 ^ width) :
    littleEndianValue (littleEndian value width) = value := by
  induction width generalizing value with
  | zero =>
    have zero : value = 0 := by simpa using fits
    simp [littleEndian, littleEndianValue, zero]
  | succ width ih =>
    have shifted : value / 256 < 256 ^ width := by
      rw [Nat.div_lt_iff_lt_mul (by decide), ← Nat.pow_succ]
      exact fits
    have rest := ih shifted
    simp only [littleEndianValue] at rest
    simp only [littleEndian, littleEndianValue, List.foldr_cons, rest, UInt8.toNat_ofNat']
    omega

def readNumber (width : Nat) : Reader UInt8 Nat := do
  let bytes ← Reader.take width
  pure (littleEndianValue bytes)

theorem readNumber_reads (fits : value < 256 ^ width) :
    (readNumber width).Reads (littleEndian value width) value := by
  have read := (Reader.Reads.take (length_littleEndian value width)).bind_pure littleEndianValue
  rwa [littleEndianValue_littleEndian fits] at read

end SwStack.Lib

namespace SwStack.Lib

def bigEndian (value width : Nat) : Bytes := (littleEndian value width).reverse

def bigEndianValue (bytes : Bytes) : Nat :=
  bytes.foldl (fun value byte => value * 256 + byte.toNat) 0

@[simp] theorem length_bigEndian (value width : Nat) : (bigEndian value width).length = width := by
  rw [bigEndian, List.length_reverse, length_littleEndian]

theorem bigEndianValue_bigEndian (fits : value < 256 ^ width) :
    bigEndianValue (bigEndian value width) = value := by
  have same : (fun (byte : UInt8) (rest : Nat) => rest * 256 + byte.toNat) =
      fun byte rest => byte.toNat + 256 * rest := by
    funext byte rest
    omega
  rw [bigEndianValue, bigEndian, List.foldl_reverse, same]
  exact littleEndianValue_littleEndian fits

def readBigEndian (width : Nat) : Reader UInt8 Nat := do
  let bytes ← Reader.take width
  pure (bigEndianValue bytes)

theorem readBigEndian_reads {value width : Nat} (fits : value < 256 ^ width) :
    (readBigEndian width).Reads (bigEndian value width) value := by
  have read := (Reader.Reads.take (length_bigEndian value width)).bind_pure bigEndianValue
  rwa [bigEndianValue_bigEndian fits] at read

end SwStack.Lib
