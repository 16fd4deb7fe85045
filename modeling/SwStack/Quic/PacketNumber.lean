import SwStack.Lib.Bits
import SwStack.Quic.VarInt

/-! Packet numbers are sent as their last one to four bytes. The receiver puts back the bytes
that were left out from the number it expects next. -/
namespace SwStack.Quic

open SwStack.Lib

/-- The codec's own writer of a packet number, for the lengths it takes. -/
def appendPacketNumber (packetNumber : Nat) (packetNumberLength : Nat) : Except String Bytes :=
  if packetNumberLength < 1 ∨ 4 < packetNumberLength then
    .error "Invalid QUIC packet number length"
  else .ok (appendBigEndian packetNumber packetNumberLength)

def readPacketNumber (packetNumberLength : Nat) : Decoder Nat := fun packet offset =>
  if packet.length - offset < packetNumberLength then
    .error (.error "QUIC packet number is truncated")
  else match readBigEndian packet packetNumberLength offset 0 with
  | .ok packetNumber => .ok (packetNumber, offset + packetNumberLength)
  | .error failure => .error failure

def expandPacketNumber (largestReceived : UInt64) (hasLargestReceived : Bool)
    (truncated : UInt64) (packetNumberLength : UInt8) : UInt64 :=
  if !hasLargestReceived then truncated
  else
    let pnNbits := packetNumberLength.toUInt64 * 8
    let expectedPn := largestReceived + 1
    let pnWin := (1 : UInt64) <<< pnNbits
    let pnHwin := pnWin / 2
    let pnMask := pnWin - 1
    let candidate := (expectedPn &&& ~~~pnMask) ||| truncated
    if candidate + pnHwin ≤ expectedPn ∧ candidate < (1 : UInt64) <<< 62 - pnWin then candidate + pnWin
    else if expectedPn + pnHwin < candidate ∧ pnWin ≤ candidate then candidate - pnWin
    else candidate

def inBlock (expected window residue : Nat) : Nat := expected / window * window + residue

/-- A number within half a window of the expected one is in its block or the next to it. -/
theorem inBlock_cases (positive : 0 < half)
    (above : expected ≤ number + half) (below : number ≤ expected + half) :
    inBlock expected (2 * half) (number % (2 * half)) = number ∨
    inBlock expected (2 * half) (number % (2 * half)) + 2 * half = number ∨
    inBlock expected (2 * half) (number % (2 * half)) = number + 2 * half := by
  have expectedDigits := Nat.div_add_mod' expected (2 * half)
  have numberDigits := Nat.div_add_mod' number (2 * half)
  have expectedSmall := Nat.mod_lt expected (show 0 < 2 * half by omega)
  have numberSmall := Nat.mod_lt number (show 0 < 2 * half by omega)
  unfold inBlock
  -- the two blocks are at most one apart
  have next : number / (2 * half) ≤ expected / (2 * half) + 1 := by
    by_contra far
    have := Nat.mul_le_mul_right (2 * half)
      (show expected / (2 * half) + 2 ≤ number / (2 * half) by omega)
    rw [Nat.add_mul] at this
    omega
  have previous : expected / (2 * half) ≤ number / (2 * half) + 1 := by
    by_contra far
    have := Nat.mul_le_mul_right (2 * half)
      (show number / (2 * half) + 2 ≤ expected / (2 * half) by omega)
    rw [Nat.add_mul] at this
    omega
  rcases (by omega : expected / (2 * half) = number / (2 * half) ∨
    number / (2 * half) = expected / (2 * half) + 1 ∨
    expected / (2 * half) = number / (2 * half) + 1) with same | after | before
  · exact .inl (by rw [same]; exact numberDigits)
  · rw [after, Nat.add_mul] at numberDigits
    exact .inr (.inl (by omega))
  · rw [before, Nat.add_mul]
    exact .inr (.inr (by omega))

/-- The choice among the candidate and its neighbours one window below and above. -/
def expandNumber (expected window residue : Nat) : Nat :=
  let candidate := inBlock expected window residue
  if candidate + window / 2 ≤ expected ∧ candidate < 2 ^ 62 - window then candidate + window
  else if expected + window / 2 < candidate ∧ window ≤ candidate then candidate - window
  else candidate

theorem expandNumber_near (positive : 0 < half)
    (above : expected < number + half) (below : number ≤ expected + half)
    (small : number < 2 ^ 62) (room : 2 * half < 2 ^ 62) :
    expandNumber expected (2 * half) (number % (2 * half)) = number := by
  have halved : 2 * half / 2 = half := Nat.mul_div_cancel_left half (by omega)
  have candidates := inBlock_cases positive above.le below
  unfold expandNumber
  simp only [halved]
  generalize inBlock expected (2 * half) (number % (2 * half)) = candidate at candidates ⊢
  rcases candidates with same | next | previous
  · rw [if_neg (by omega), if_neg (by omega), same]
  · rw [if_pos (by omega), next]
  · rw [if_neg (by omega), if_pos (by omega)]
    omega

theorem toNat_window (narrow : width < 64) :
    ((1 : UInt64) <<< UInt64.ofNat width).toNat = 2 ^ width := by
  have shift : (UInt64.ofNat width).toNat % 64 = width := by
    rw [UInt64.toNat_ofNat']
    omega
  have bound : 2 ^ width < 2 ^ 64 := Nat.pow_lt_pow_right (by omega) narrow
  rw [UInt64.toNat_shiftLeft, shift, UInt64.toNat_one, Nat.one_shiftLeft, Nat.mod_eq_of_lt bound]

theorem toNat_mask (narrow : width < 64) :
    ((1 : UInt64) <<< UInt64.ofNat width - 1).toNat = 2 ^ width - 1 := by
  have positive := Nat.two_pow_pos width
  rw [UInt64.toNat_sub_of_le, toNat_window narrow, UInt64.toNat_one]
  rw [UInt64.le_iff_toNat_le, toNat_window narrow, UInt64.toNat_one]
  omega

theorem clear_low (value : Nat) (fits : value < 2 ^ 64) (narrow : width < 64) :
    value &&& (2 ^ 64 - 1 - (2 ^ width - 1)) = value / 2 ^ width * 2 ^ width := by
  have bound : 2 ^ width - 1 < 2 ^ 64 :=
    lt_of_le_of_lt (Nat.sub_le _ _) (Nat.pow_lt_pow_right (by omega) narrow)
  rw [Nat.mul_comm, ← Nat.shiftRight_eq_div_pow]
  apply Nat.eq_of_testBit_eq
  intro position
  rw [show 2 ^ 64 - 1 - (2 ^ width - 1) = 2 ^ 64 - (2 ^ width - 1 + 1) by omega,
    Nat.testBit_and, Nat.testBit_two_pow_sub_succ bound, Nat.testBit_two_pow_sub_one,
    Nat.testBit_two_pow_mul, Nat.testBit_shiftRight]
  by_cases low : position < width
  · simp [low, Nat.not_le.mpr low]
  · rw [Nat.add_sub_cancel' (Nat.not_lt.mp low)]
    by_cases high : position < 64
    · simp [low, high, Nat.not_lt.mp low]
    · have zero : value.testBit position = false := Nat.testBit_lt_two_pow
        (lt_of_lt_of_le fits (Nat.pow_le_pow_right (by omega) (Nat.not_lt.mp high)))
      simp [zero]

theorem replace_low {value residue : UInt64} {width : Nat} (narrow : width < 64)
    (small : residue.toNat < 2 ^ width) :
    ((value &&& ~~~((1 : UInt64) <<< UInt64.ofNat width - 1)) ||| residue).toNat =
      inBlock value.toNat (2 ^ width) residue.toNat := by
  rw [UInt64.toNat_or, UInt64.toNat_and, UInt64.toNat_not, toNat_mask narrow,
    show UInt64.size = 2 ^ 64 from rfl, clear_low value.toNat value.toNat_lt narrow, Nat.mul_comm,
    ← Nat.two_pow_add_eq_or_of_lt small, Nat.mul_comm, inBlock]

/-- What the words compute is what the numbers say: nothing wraps around. -/
theorem toNat_expandPacketNumber
    (digits : length.toUInt64 * 8 = UInt64.ofNat width) (narrow : width < 62)
    (small : truncated.toNat < 2 ^ width) (near : largest.toNat + 1 < 2 ^ 63) :
    (expandPacketNumber largest true truncated length).toNat =
      expandNumber (largest.toNat + 1) (2 ^ width) truncated.toNat := by
  have window := toNat_window (show width < 64 by omega)
  have bound : 2 ^ width < 2 ^ 62 := Nat.pow_lt_pow_right (by omega) narrow
  have half : ((1 : UInt64) <<< UInt64.ofNat width / 2).toNat = 2 ^ width / 2 := by
    rw [UInt64.toNat_div, window]
    rfl
  have expected : (largest + 1).toNat = largest.toNat + 1 := by
    rw [UInt64.toNat_add, UInt64.toNat_one, Nat.mod_eq_of_lt (by omega)]
  have candidate := @replace_low (largest + 1) truncated width (by omega) small
  rw [expected] at candidate
  have block : inBlock (largest.toNat + 1) (2 ^ width) truncated.toNat ≤
      largest.toNat + 1 + 2 ^ width := by
    have := Nat.div_mul_le_self (largest.toNat + 1) (2 ^ width)
    unfold inBlock
    omega
  have last : ((1 : UInt64) <<< 62 - (1 : UInt64) <<< UInt64.ofNat width).toNat =
      2 ^ 62 - 2 ^ width := by
    have top : ((1 : UInt64) <<< 62).toNat = 2 ^ 62 := rfl
    rw [UInt64.toNat_sub_of_le, window, top]
    rw [UInt64.le_iff_toNat_le, window, top]
    omega
  unfold expandPacketNumber expandNumber
  simp only [Bool.not_true, Bool.false_eq_true, if_false, digits]
  generalize (1 : UInt64) <<< UInt64.ofNat width = win at *
  generalize (largest + 1) &&& ~~~(win - 1) ||| truncated = found at *
  generalize largest + 1 = next at *
  have up : (found + win / 2).toNat = found.toNat + win.toNat / 2 := by
    rw [UInt64.toNat_add, half, window, Nat.mod_eq_of_lt (by omega)]
  have ahead : (next + win / 2).toNat = next.toNat + win.toNat / 2 := by
    rw [UInt64.toNat_add, half, window, Nat.mod_eq_of_lt (by omega)]
  simp only [UInt64.le_iff_toNat_le, UInt64.lt_iff_toNat_lt, up, ahead, last, candidate, expected,
    window]
  split
  · rw [UInt64.toNat_add, candidate, window, Nat.mod_eq_of_lt (by omega)]
  · split
    next low =>
      rw [UInt64.toNat_sub_of_le, candidate, window]
      rw [UInt64.le_iff_toNat_le, candidate, window]
      exact low.2
    next => exact candidate

/-- What is left of a packet number in its last `packetNumberLength` bytes. -/
def truncatePacketNumber (packetNumber : UInt64) (packetNumberLength : UInt8) : UInt64 :=
  UInt64.ofNat (packetNumber.toNat % 256 ^ packetNumberLength.toNat)

/-- Half of the numbers that the encoded bytes tell apart. -/
def halfWindow (packetNumberLength : UInt8) : Nat := 256 ^ packetNumberLength.toNat / 2

theorem window_eq (length : UInt8) : 2 ^ (8 * length.toNat) = 256 ^ length.toNat :=
  Nat.pow_mul 2 8 length.toNat

theorem digits_eq (length : UInt8) :
    length.toUInt64 * 8 = UInt64.ofNat (8 * length.toNat) := by
  have small := length.toNat_lt
  apply UInt64.toNat_inj.mp
  rw [UInt64.toNat_mul, UInt8.toNat_toUInt64, UInt64.toNat_ofNat', Nat.mul_comm]
  rfl

theorem toNat_truncatePacketNumber (packetNumber : UInt64) (length : UInt8) :
    (truncatePacketNumber packetNumber length).toNat =
      packetNumber.toNat % 256 ^ length.toNat := by
  have fits := packetNumber.toNat_lt
  have smaller := Nat.mod_le packetNumber.toNat (256 ^ length.toNat)
  rw [truncatePacketNumber, UInt64.toNat_ofNat', Nat.mod_eq_of_lt (by omega)]

theorem expand_truncate (shortest : 1 ≤ length)
    (longest : length ≤ 4) (small : packetNumber.toNat < 2 ^ 62)
    (above : largest.toNat + 1 < packetNumber.toNat + halfWindow length)
    (below : packetNumber.toNat ≤ largest.toNat + 1 + halfWindow length) :
    expandPacketNumber largest true (truncatePacketNumber packetNumber length) length =
      packetNumber := by
  have least : 1 ≤ length.toNat := UInt8.le_iff_toNat_le.mp shortest
  have most : length.toNat ≤ 4 := UInt8.le_iff_toNat_le.mp longest
  have window : 256 ^ length.toNat = 2 * halfWindow length := by
    have even : 256 ^ length.toNat = 2 * (128 * 256 ^ (length.toNat - 1)) := by
      rw [← Nat.mul_assoc, ← Nat.pow_succ', Nat.succ_eq_add_one, Nat.sub_add_cancel least]
    unfold halfWindow
    omega
  have bound : 256 ^ length.toNat ≤ 256 ^ 4 := Nat.pow_le_pow_right (by decide) most
  have positive : 0 < 256 ^ length.toNat := Nat.pow_pos (by decide)
  have residue := Nat.mod_lt packetNumber.toNat positive
  rw [← toNat_truncatePacketNumber packetNumber length, ← window_eq] at residue
  apply UInt64.toNat_inj.mp
  rw [toNat_expandPacketNumber (digits_eq length) (by omega) residue (by omega), window_eq,
    toNat_truncatePacketNumber, window]
  exact expandNumber_near (by omega) above below small (by omega)

theorem expandPacketNumber_truncated {largest packetNumber : UInt64} {length : UInt8}
    (shortest : 1 ≤ length) (longest : length ≤ 4) (small : packetNumber.toNat < 2 ^ 62)
    (above : largest.toNat + 1 < packetNumber.toNat + halfWindow length)
    (below : packetNumber.toNat ≤ largest.toNat + 1 + halfWindow length) :
    expandPacketNumber largest true (truncatePacketNumber packetNumber length) length =
      packetNumber :=
  expand_truncate shortest longest small above below

theorem expandPacketNumber_truncated_last :
    expandPacketNumber (UInt64.ofNat (2 ^ 62 - 2)) true
      (truncatePacketNumber (UInt64.ofNat (2 ^ 62 - 1)) 2) 2 = UInt64.ofNat (2 ^ 62 - 1) :=
  expandPacketNumber_truncated (by decide) (by decide) (by decide) (by decide +kernel)
    (by decide +kernel)

/-- Half a window below the expected number another number has the same last bytes, as near
above it, and that one is taken. -/
theorem expandPacketNumber_lower_end :
    ¬ ∀ (largest packetNumber : UInt64) (length : UInt8), 1 ≤ length → length ≤ 4 →
      packetNumber.toNat < 2 ^ 62 →
      largest.toNat + 1 ≤ packetNumber.toNat + halfWindow length →
      packetNumber.toNat ≤ largest.toNat + 1 + halfWindow length →
      expandPacketNumber largest true (truncatePacketNumber packetNumber length) length =
        packetNumber := by
  intro always
  have wrong := always 127 0 1 (by decide) (by decide) (by decide) (by decide) (by decide)
  revert wrong
  decide

/-- What is written of a packet number near the expected one is read wherever it stands and put
back; where bytes of it are missing the packet is refused. -/
theorem packetNumber_delivered {largest packetNumber : UInt64} {length : UInt8}
    (small : packetNumber.toNat < 2 ^ 62)
    (above : largest.toNat + 1 < packetNumber.toNat + halfWindow length)
    (below : packetNumber.toNat ≤ largest.toNat + 1 + halfWindow length)
    (written : appendPacketNumber packetNumber.toNat length.toNat = .ok bytes) (before : Bytes) :
    (∀ after, ∃ truncated,
      readPacketNumber length.toNat (before ++ (bytes ++ after)) before.length =
        .ok (truncated, before.length + length.toNat) ∧
      expandPacketNumber largest true (UInt64.ofNat truncated) length = packetNumber) ∧
    ∀ part, part <+: bytes → part ≠ bytes →
      readPacketNumber length.toNat (before ++ part) before.length =
        .error (.error "QUIC packet number is truncated") := by
  rw [appendPacketNumber] at written
  split at written
  · cases written
  rename_i accepted
  rw [not_or, not_lt, not_lt] at accepted
  obtain ⟨shortest, longest⟩ := accepted
  cases written
  rw [appendBigEndian_eq]
  refine ⟨fun after => ⟨packetNumber.toNat % 256 ^ length.toNat, ?_, ?_⟩, fun part inside cut => ?_⟩
  · have read := readBigEndian_bigEndian (Nat.mod_lt packetNumber.toNat
      (Nat.pow_pos (n := length.toNat) (show 0 < 256 by decide))) before after 0
    rw [bigEndian_mod, Nat.zero_mul, Nat.zero_add] at read
    rw [readPacketNumber, if_neg (by simp), read]
  · exact expand_truncate (UInt8.le_iff_toNat_le.mpr shortest) (UInt8.le_iff_toNat_le.mpr longest)
      small above below
  · have shorter := inside.length_le.lt_of_ne fun whole => cut (inside.eq_of_length whole)
    rw [length_bigEndian] at shorter
    rw [readPacketNumber, if_pos (by simpa using shorter)]

theorem packetNumber_delivered_wrapped : ∃ truncated,
    readPacketNumber 1 [0x40, 0x01] 1 = .ok (truncated, 2) ∧
      expandPacketNumber 255 true (UInt64.ofNat truncated) 1 = 257 :=
  (@packetNumber_delivered _ 255 257 1 (by decide) (by decide) (by decide) rfl [0x40]).1 []

end SwStack.Quic
