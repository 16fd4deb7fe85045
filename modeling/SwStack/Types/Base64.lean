import SwStack.Types.SwString

/-! Base64, with the bits that are not written yet kept in a number. -/
namespace SwStack.Types

open SwStack.Lib

def base64Chars : Bytes :=
  ascii "ABCDEFGHIJKLMNOPQRSTUVWXYZabcdefghijklmnopqrstuvwxyz0123456789+/"

structure Base64State where
  value : Nat
  pending : Nat
  output : Bytes

/-- Writes six bits at a time, as long as there are six. -/
def emitSextets : Nat → Base64State → Base64State
  | 0, state => state
  | fuel + 1, state =>
    if state.pending < 6 then state
    else
      let pending := state.pending - 6
      emitSextets fuel
        { state with
          pending
          output := state.output ++ [base64Chars.getD (state.value / 2 ^ pending % 64) 0] }

def base64Encode (data : Bytes) : Bytes :=
  let state := data.foldl (fun state byte =>
    emitSextets 2
      { state with value := state.value * 256 % 2 ^ 32 + byte.toNat, pending := state.pending + 8 })
    { value := 0, pending := 0, output := [] }
  let encoded :=
    if 0 < state.pending then
      state.output ++ [base64Chars.getD (state.value * 256 / 2 ^ (state.pending + 2) % 64) 0]
    else state.output
  encoded ++ List.replicate ((4 - encoded.length % 4) % 4) 0x3d

def base64Decode (encoded : Bytes) : Bytes :=
  ((encoded.takeWhile fun byte => byte ∈ base64Chars).foldl (fun state byte =>
    let value := state.value * 64 % 2 ^ 32 + base64Chars.idxOf byte
    let pending := state.pending + 6
    if pending < 8 then { state with value, pending }
    else
      { value
        pending := pending - 8
        output := state.output ++ [UInt8.ofNat (value / 2 ^ (pending - 8) % 256)] })
    ({ value := 0, pending := 0, output := [] } : Base64State)).output

end SwStack.Types
