import SwStack.Lib.SortedMap
import SwStack.Types.JsonWriter

/-! The JSON parser, without a key to decrypt under: it scans the text by index and cuts the
text of numbers and literals out of it. -/
namespace SwStack.Types

open SwStack.Lib

/-- A message with its index, or a parse that ran out of fuel. -/
inductive JsonFailure where
  | error (index : Nat) (message : String)
  | unfinished
  deriving DecidableEq

/-- The byte at an index, or zero past the end. -/
def byteAt (text : Bytes) (index : Nat) : UInt8 := text.getD index 0

def skipWhile (test : UInt8 → Bool) (text : Bytes) (index : Nat) : Nat :=
  index + ((text.drop index).takeWhile test).length

def skipWhitespace : Bytes → Nat → Nat := skipWhile isSpace

/-- A run of bytes, cut out by positions that are clamped to an `int`. -/
def cutText (text : Bytes) (start stop : Nat) : Bytes :=
  SwString.mid text (min start maxInt : Nat) (min (stop - start) maxInt : Nat)

variable (numbers : DoubleText)

def scanWhole (text : Bytes) (index : Nat) : Except JsonFailure Nat :=
  if ¬ isDigit (byteAt text index) then .error (.error index "Expected digit in number literal")
  else if byteAt text index = 0x30 ∧ isDigit (byteAt text (index + 1)) then
    .error (.error (index + 1) "Leading zeros are not allowed in JSON numbers")
  else .ok (skipWhile isDigit text (index + 1))

/-- A fraction, and whether there is one. -/
def scanFraction (text : Bytes) (index : Nat) : Except JsonFailure (Nat × Bool) :=
  if byteAt text index ≠ 0x2e then .ok (index, false)
  else if ¬ isDigit (byteAt text (index + 1)) then
    .error (.error (index + 1) "Expected digit after decimal point")
  else .ok (skipWhile isDigit text (index + 1), true)

def scanExponent (text : Bytes) (index : Nat) : Except JsonFailure (Nat × Bool) :=
  if byteAt text index ≠ 0x65 ∧ byteAt text index ≠ 0x45 then .ok (index, false)
  else
    let digits := if byteAt text (index + 1) = 0x2b ∨ byteAt text (index + 1) = 0x2d
      then index + 2 else index + 1
    if ¬ isDigit (byteAt text digits) then
      .error (.error digits "Expected digit in exponent")
    else .ok (skipWhile isDigit text digits, true)

/-- What the lexeme between two indices is read as. -/
def readNumber (text : Bytes) (start stop : Nat) (isFloating : Bool) : Except JsonFailure Json :=
  let lexeme := cutText text start stop
  if isFloating then
    let (value, ended) := numbers.strtod lexeme
    if ended ≠ lexeme.length ∨ ¬ value.isFinite then
      .error (.error start "Invalid floating-point number")
    else .ok (.double value)
  else
    let conversion := strtoll lexeme
    if conversion.stop ≠ lexeme.length ∨ conversion.outOfRange then
      .error (.error start "Invalid integer number")
    else .ok (.integer conversion.value)

def parseNumber (text : Bytes) (start : Nat) : Except JsonFailure (Json × Nat) := do
  let whole ← scanWhole text (if byteAt text start = 0x2d then start + 1 else start)
  let fraction ← scanFraction text whole
  let exponent ← scanExponent text fraction.1
  let value ← readNumber numbers text start exponent.1 (fraction.2 || exponent.2)
  return (value, exponent.1)

/-- The word at an index, as it is cut, and where it ends. -/
def parseLiteral (text : Bytes) (start : Nat) : Bytes × Nat :=
  (cutText text start (skipWhile isAlpha text start), skipWhile isAlpha text start)

def parseBoolean (text : Bytes) (start : Nat) : Except JsonFailure (Json × Nat) :=
  let literal := parseLiteral text start
  if literal.1 = booleanText true then .ok (.boolean true, literal.2)
  else if literal.1 = booleanText false then .ok (.boolean false, literal.2)
  else .error (.error literal.2 "Invalid boolean literal")

def parseNull (text : Bytes) (start : Nat) : Except JsonFailure (Json × Nat) :=
  let literal := parseLiteral text start
  if literal.1 = nullText then .ok (.null, literal.2)
  else .error (.error literal.2 "Invalid literal, expected 'null'")

def hexValue (byte : UInt8) : Option Nat :=
  if 0x30 ≤ byte ∧ byte ≤ 0x39 then some (byte.toNat - 0x30)
  else if 0x61 ≤ byte ∧ byte ≤ 0x66 then some (byte.toNat - 0x61 + 10)
  else if 0x41 ≤ byte ∧ byte ≤ 0x46 then some (byte.toNat - 0x41 + 10)
  else none

def readHexDigits (text : Bytes) : Nat → Nat → Nat → Except JsonFailure Nat
  | 0, _, codeUnit => .ok codeUnit
  | count + 1, index, codeUnit =>
    match hexValue (byteAt text index) with
    | none => .error (.error index "Invalid hex digit in Unicode escape")
    | some value => readHexDigits text count (index + 1) ((codeUnit <<< 4) ||| value)

def parseUnicodeEscapeSequence (text : Bytes) (index : Nat) : Except JsonFailure Nat :=
  if text.length < index + 4 then .error (.error index "Incomplete Unicode escape sequence")
  else readHexDigits text 4 index 0

/-- A byte that continues a code point with its low six bits. -/
def continuation (bits : Nat) : UInt8 := UInt8.ofNat (0x80 ||| (bits &&& 0x3f))

def appendUtf8FromCodePoint (codePoint : Nat) : Bytes :=
  if codePoint ≤ 0x7f then [UInt8.ofNat codePoint]
  else if codePoint ≤ 0x7ff then
    [UInt8.ofNat (0xc0 ||| ((codePoint >>> 6) &&& 0x1f)), continuation codePoint]
  else if codePoint ≤ 0xffff then
    [UInt8.ofNat (0xe0 ||| ((codePoint >>> 12) &&& 0x0f)), continuation (codePoint >>> 6),
      continuation codePoint]
  else
    [UInt8.ofNat (0xf0 ||| ((codePoint >>> 18) &&& 0x07)), continuation (codePoint >>> 12),
      continuation (codePoint >>> 6), continuation codePoint]

/-- The escape `\u` at an index past it, with the second half of a surrogate pair. -/
def parseUnicodeEscape (text : Bytes) (index : Nat) : Except JsonFailure (Bytes × Nat) := do
  let unit ← parseUnicodeEscapeSequence text index
  if 0xd800 ≤ unit ∧ unit ≤ 0xdbff then
    if text.length ≤ index + 5 ∨ byteAt text (index + 4) ≠ 0x5c ∨
        byteAt text (index + 5) ≠ 0x75 then
      .error (.error (index + 4) "Missing low surrogate after high surrogate")
    else do
      let low ← parseUnicodeEscapeSequence text (index + 6)
      if low < 0xdc00 ∨ 0xdfff < low then
        .error (.error (index + 10) "Invalid low surrogate in Unicode escape")
      else
        let codePoint := 0x10000 + ((unit - 0xd800) <<< 10) + (low - 0xdc00)
        return (appendUtf8FromCodePoint codePoint, index + 10)
  else if 0xdc00 ≤ unit ∧ unit ≤ 0xdfff then
    .error (.error (index + 4) "Unexpected low surrogate without leading high surrogate")
  else return (appendUtf8FromCodePoint unit, index + 4)

/-- What a backslash escapes, at the index past it. -/
def parseEscape (text : Bytes) (index : Nat) : Except JsonFailure (Bytes × Nat) :=
  if text.length ≤ index then .error (.error index "Invalid escape sequence in string")
  else
    let escapeChar := byteAt text index
    if escapeChar = 0x22 then .ok ([0x22], index + 1)
    else if escapeChar = 0x5c then .ok ([0x5c], index + 1)
    else if escapeChar = 0x2f then .ok ([0x2f], index + 1)
    else if escapeChar = 0x62 then .ok ([0x08], index + 1)
    else if escapeChar = 0x66 then .ok ([0x0c], index + 1)
    else if escapeChar = 0x6e then .ok ([0x0a], index + 1)
    else if escapeChar = 0x72 then .ok ([0x0d], index + 1)
    else if escapeChar = 0x74 then .ok ([0x09], index + 1)
    else if escapeChar = 0x75 then parseUnicodeEscape text (index + 1)
    else .error (.error index "Invalid escape character in string")

/-- The loop over a string: a span of ordinary bytes, then a quote or an escape. -/
def parseStringLoop (text : Bytes) : Nat → Nat → Bytes → Except JsonFailure (Bytes × Nat)
  | 0, _, _ => .error .unfinished
  | fuel + 1, start, result =>
    let span := (text.drop start).takeWhile fun byte => !needsEscape byte
    let index := start + span.length
    if text.length ≤ index then .error (.error index "Unterminated string literal")
    else if byteAt text index = 0x22 then .ok (result ++ span, index + 1)
    else if byteAt text index = 0x5c then do
      let escaped ← parseEscape text (index + 1)
      parseStringLoop text fuel escaped.2 (result ++ span ++ escaped.1)
    else .error (.error index "Unescaped control character in string")

def parseString (text : Bytes) (index : Nat) : Except JsonFailure (Bytes × Nat) :=
  parseStringLoop text (text.length + 1) (index + 1) []

/-- Values that begin with their own byte and hold no others. -/
def parseScalar (text : Bytes) (index : Nat) : Except JsonFailure (Json × Nat) :=
  let c := byteAt text index
  if c = 0x22 then (parseString text index).map fun read => (.string read.1, read.2)
  else if c = 0x74 ∨ c = 0x66 then parseBoolean text index
  else if c = 0x6e then parseNull text index
  else if isDigit c ∨ c = 0x2d then parseNumber numbers text index
  else .error (.error index "Invalid JSON token")

/-- A key with its colon. -/
def parseKey (text : Bytes) (index : Nat) : Except JsonFailure (Bytes × Nat) :=
  if byteAt text index ≠ 0x22 then .error (.error index "Expected string key in object")
  else do
    let key ← parseString text index
    let colon := skipWhitespace text key.2
    if text.length ≤ colon ∨ byteAt text colon ≠ 0x3a then
      .error (.error colon "Expected ':' after object key")
    else return (key.1, colon + 1)

mutual

def parseJson (text : Bytes) : Nat → Nat → Except JsonFailure (Json × Nat)
  | 0, _ => .error .unfinished
  | fuel + 1, start =>
    let index := skipWhitespace text start
    if text.length ≤ index then .error (.error index "Unexpected end of JSON input")
    else if byteAt text index = 0x7b then parseObject text fuel (index + 1) []
    else if byteAt text index = 0x5b then parseArray text fuel (index + 1) []
    else parseScalar numbers text index

/-- The loop over members, with those read so far. -/
def parseObject (text : Bytes) : Nat → Nat → List (Bytes × Json) →
    Except JsonFailure (Json × Nat)
  | 0, _, _ => .error .unfinished
  | fuel + 1, start, members =>
    let index := skipWhitespace text start
    if text.length ≤ index then .error (.error index "Unterminated JSON object")
    else if byteAt text index = 0x7d then .ok (.object members, index + 1)
    else do
      let key ← parseKey text index
      let value ← parseJson text fuel key.2
      let after := skipWhitespace text value.2
      if text.length ≤ after then .error (.error after "Unterminated JSON object")
      else if byteAt text after = 0x2c then
        parseObject text fuel (after + 1) (SortedMap.insertEntry key.1 value.1 members)
      else if byteAt text after = 0x7d then
        return (.object (SortedMap.insertEntry key.1 value.1 members), after + 1)
      else .error (.error after "Expected ',' or '\x7d' in object")

/-- The loop over elements, with those read so far. -/
def parseArray (text : Bytes) : Nat → Nat → List Json → Except JsonFailure (Json × Nat)
  | 0, _, _ => .error .unfinished
  | fuel + 1, start, elements =>
    let index := skipWhitespace text start
    if text.length ≤ index then .error (.error index "Unterminated JSON array")
    else if byteAt text index = 0x5d then .ok (.array elements, index + 1)
    else do
      let value ← parseJson text fuel index
      let after := skipWhitespace text value.2
      if text.length ≤ after then .error (.error after "Unterminated JSON array")
      else if byteAt text after = 0x2c then
        parseArray text fuel (after + 1) (elements ++ [value.1])
      else if byteAt text after = 0x5d then return (.array (elements ++ [value.1]), after + 1)
      else .error (.error after "Expected ',' or ']' in array")

end

/-- Where the text begins behind a byte order mark. -/
def contentStart (text : Bytes) : Nat :=
  if 3 ≤ text.length ∧ byteAt text 0 = 0xef ∧ byteAt text 1 = 0xbb ∧ byteAt text 2 = 0xbf then 3
  else 0

def fromJson (text : Bytes) : Except JsonFailure Json := do
  let read ← parseJson numbers text (2 * text.length + 2) (contentStart text)
  let index := skipWhitespace text read.2
  if index < text.length then .error (.error index "Unexpected characters at the end of JSON.")
  else return read.1

end SwStack.Types
