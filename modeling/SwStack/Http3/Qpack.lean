import SwStack.Http3.HpackHuffman
import SwStack.Quic.FrameRoundTrip
import SwStack.Types.SwString

/-! QPACK field sections that reference the static table only. Each field is written as a table
index, as a name index with a literal value, or as two literals; a literal is written in the
Huffman code where that is shorter. -/
namespace SwStack.Http3

open SwStack.Lib SwStack.Types SwStack.Quic

abbrev HeaderField := Bytes × Bytes

def staticTable : List (String × String) :=
  [(":authority", ""),
  (":path", "/"),
  ("age", "0"),
  ("content-disposition", ""),
  ("content-length", "0"),
  ("cookie", ""),
  ("date", ""),
  ("etag", ""),
  ("if-modified-since", ""),
  ("if-none-match", ""),
  ("last-modified", ""),
  ("link", ""),
  ("location", ""),
  ("referer", ""),
  ("set-cookie", ""),
  (":method", "CONNECT"),
  (":method", "DELETE"),
  (":method", "GET"),
  (":method", "HEAD"),
  (":method", "OPTIONS"),
  (":method", "POST"),
  (":method", "PUT"),
  (":scheme", "http"),
  (":scheme", "https"),
  (":status", "103"),
  (":status", "200"),
  (":status", "304"),
  (":status", "404"),
  (":status", "503"),
  ("accept", "*/*"),
  ("accept", "application/dns-message"),
  ("accept-encoding", "gzip, deflate, br"),
  ("accept-ranges", "bytes"),
  ("access-control-allow-headers", "cache-control"),
  ("access-control-allow-headers", "content-type"),
  ("access-control-allow-origin", "*"),
  ("cache-control", "max-age=0"),
  ("cache-control", "max-age=2592000"),
  ("cache-control", "max-age=604800"),
  ("cache-control", "no-cache"),
  ("cache-control", "no-store"),
  ("cache-control", "public, max-age=31536000"),
  ("content-encoding", "br"),
  ("content-encoding", "gzip"),
  ("content-type", "application/dns-message"),
  ("content-type", "application/javascript"),
  ("content-type", "application/json"),
  ("content-type", "application/x-www-form-urlencoded"),
  ("content-type", "image/gif"),
  ("content-type", "image/jpeg"),
  ("content-type", "image/png"),
  ("content-type", "text/css"),
  ("content-type", "text/html; charset=utf-8"),
  ("content-type", "text/plain"),
  ("content-type", "text/plain;charset=utf-8"),
  ("range", "bytes=0-"),
  ("strict-transport-security", "max-age=31536000"),
  ("strict-transport-security", "max-age=31536000; includesubdomains"),
  ("strict-transport-security", "max-age=31536000; includesubdomains; preload"),
  ("vary", "accept-encoding"),
  ("vary", "origin"),
  ("x-content-type-options", "nosniff"),
  ("x-xss-protection", "1; mode=block"),
  (":status", "100"),
  (":status", "204"),
  (":status", "206"),
  (":status", "302"),
  (":status", "400"),
  (":status", "403"),
  (":status", "421"),
  (":status", "425"),
  (":status", "500"),
  ("accept-language", ""),
  ("access-control-allow-credentials", "FALSE"),
  ("access-control-allow-credentials", "TRUE"),
  ("access-control-allow-headers", "*"),
  ("access-control-allow-methods", "get"),
  ("access-control-allow-methods", "get, post, options"),
  ("access-control-allow-methods", "options"),
  ("access-control-expose-headers", "content-length"),
  ("access-control-request-headers", "content-type"),
  ("access-control-request-method", "get"),
  ("access-control-request-method", "post"),
  ("alt-svc", "clear"),
  ("authorization", ""),
  ("content-security-policy", "script-src 'none'; object-src 'none'; base-uri 'none'"),
  ("early-data", "1"),
  ("expect-ct", ""),
  ("forwarded", ""),
  ("if-range", ""),
  ("origin", ""),
  ("purpose", "prefetch"),
  ("server", ""),
  ("timing-allow-origin", "*"),
  ("upgrade-insecure-requests", "1"),
  ("user-agent", ""),
  ("x-forwarded-for", ""),
  ("x-frame-options", "deny"),
  ("x-frame-options", "sameorigin")]

def nameValueAt (index : Nat) : Option HeaderField :=
  staticTable[index]?.map fun entry => (ascii entry.1, ascii entry.2)

def findExact (name value : Bytes) : Option Nat :=
  staticTable.findIdx? fun entry => name = ascii entry.1 ∧ value = ascii entry.2

def findName (name : Bytes) : Option Nat := staticTable.findIdx? fun entry => name = ascii entry.1

/-- The largest number that fits in the low bits of a first byte, cast to a byte. -/
def maxPrefix (prefixBits : Nat) : Nat := (1 <<< prefixBits - 1) % 256

/-- The groups of seven bits of a 64-bit number, the lowest first. -/
def encodeGroups : Nat → Nat → Bytes
  | 0, value => [UInt8.ofNat (value &&& 0x7f)]
  | fuel + 1, value =>
    if 128 ≤ value then UInt8.ofNat ((value &&& 0x7f) ||| 0x80) :: encodeGroups fuel (value >>> 7)
    else [UInt8.ofNat (value &&& 0x7f)]

def encodeInteger (value prefixBits pattern : Nat) : Bytes :=
  if value < maxPrefix prefixBits then [UInt8.ofNat (pattern ||| value)]
  else
    UInt8.ofNat (pattern ||| maxPrefix prefixBits) :: encodeGroups 9 (value - maxPrefix prefixBits)

def encodeString (str : Bytes) (prefixBits basePattern hBit : Nat) : Bytes :=
  let huffman := huffmanEncode str
  if huffman.length < str.length then
    encodeInteger (huffman.length % 2 ^ 64) prefixBits (basePattern ||| hBit) ++ huffman
  else encodeInteger (str.length % 2 ^ 64) prefixBits basePattern ++ str

def encodeField (field : HeaderField) : Bytes :=
  match findExact field.1 field.2 with
  | some index => encodeInteger index 6 0xc0
  | none =>
    match findName field.1 with
    | some index => encodeInteger index 4 0x50 ++ encodeString field.2 7 0x00 0x80
    | none => encodeString field.1 3 0x20 0x08 ++ encodeString field.2 7 0x00 0x80

def encodeFieldSection (headers : List HeaderField) : Bytes :=
  [0x00, 0x00] ++ headers.flatMap encodeField

def sizeMax : Nat := 2 ^ 64 - 1

/-- Reads on while the groups continue; a tenth group must be the last. -/
def decodeGroups : Nat → Nat → Nat → Decoder Nat
  | 0, _, _ => Cursor.fail .unfinished
  | fuel + 1, shift, value => fun input offset =>
    if input.length ≤ offset then .error (.error "QPACK integer continuation is truncated")
    else match input[offset]? with
    | none => .error .outside
    | some byte =>
      let value := (value + ((byte.toNat &&& 0x7f) <<< shift % 2 ^ 64)) % 2 ^ 64
      if byte.toNat &&& 0x80 = 0 then .ok (value, offset + 1)
      else if 63 < shift + 7 then .error (.error "QPACK integer is too large")
      else decodeGroups fuel (shift + 7) value input (offset + 1)

def decodeInteger (prefixBits : Nat) : Decoder Nat := fun input offset =>
  if input.length ≤ offset then .error (.error "QPACK integer is truncated")
  else match input[offset]? with
  | none => .error .outside
  | some firstByte =>
    let value := firstByte.toNat &&& maxPrefix prefixBits
    if value < maxPrefix prefixBits then .ok (value, offset + 1)
    else decodeGroups 10 0 value input (offset + 1)

def stringLimit : String := "QPACK string literal exceeds the configured decoded limit"

/-- Takes the bytes of a literal, and decodes them. -/
def readLiteral (huffman : Bool) (maxOutputBytes length : Nat) : Decoder Bytes :=
  fun input offset =>
    if input.length - offset < length then
      .error (.error "QPACK string literal length exceeds available data")
    else if (¬huffman ∧ maxOutputBytes < length) ∨
        (huffman ∧ maxOutputBytes ≤ sizeMax / 4 ∧ maxOutputBytes * 4 < length) then
      .error (.error stringLimit)
    else if maxInt < length then .error (.error "QPACK string literal is too large")
    else match mid input (toInt offset) (toInt length) with
    | none => .error .outside
    | some raw =>
      if huffman then
        match huffmanDecode raw maxOutputBytes with
        | .ok out => .ok (out, offset + length)
        | .error message => .error (.error message)
      else .ok (raw, offset + length)

/-- The next byte, which is not read yet. -/
def peekByte (truncated : String) : Decoder UInt8 := fun input offset =>
  if input.length ≤ offset then .error (.error truncated)
  else match input[offset]? with
  | none => .error .outside
  | some byte => .ok (byte, offset)

def decodeString (prefixBits hBit maxOutputBytes : Nat) : Decoder Bytes := do
  let first ← peekByte "QPACK string literal is truncated"
  let length ← decodeInteger prefixBits
  readLiteral (first.toNat &&& hBit ≠ 0) maxOutputBytes length

def remainingBytes (limit used reserved : Nat) : Nat :=
  if limit < used ∨ limit - used < reserved then 0 else limit - used - reserved

structure DecodedFields where
  out : List HeaderField
  decodedBytes : Nat
  deriving DecidableEq

def fieldLineOverhead : Nat := 32

def fieldsLimit : String := "QPACK decoded fields exceed the configured byte limit"

def appendField (decodedLimit : Nat) (decoded : DecodedFields) (field : HeaderField) :
    Decoder DecodedFields :=
  if decodedLimit < decoded.decodedBytes ∨
      decodedLimit - decoded.decodedBytes < fieldLineOverhead then
    Cursor.fail (.error fieldsLimit)
  else
    let afterOverhead := decoded.decodedBytes + fieldLineOverhead
    if decodedLimit - afterOverhead < field.1.length then Cursor.fail (.error fieldsLimit)
    else
      let afterName := afterOverhead + field.1.length
      if decodedLimit - afterName < field.2.length then Cursor.fail (.error fieldsLimit)
      else pure { out := decoded.out ++ [field], decodedBytes := afterName + field.2.length }

def decodeIndexed (decodedLimit : Nat) (decoded : DecodedFields) : Decoder DecodedFields := do
  let index ← decodeInteger 6
  match nameValueAt index with
  | none => Cursor.fail (.error "QPACK Indexed Field Line has an out-of-range static index")
  | some field => appendField decodedLimit decoded field

def decodeNameReference (decodedLimit : Nat) (decoded : DecodedFields) :
    Decoder DecodedFields := do
  let index ← decodeInteger 4
  match nameValueAt index with
  | none => Cursor.fail (.error "QPACK name reference has an out-of-range static index")
  | some (name, _) =>
    let value ← decodeString 7 0x80
      (remainingBytes decodedLimit decoded.decodedBytes name.length)
    appendField decodedLimit decoded (name, value)

def decodeLiteralName (decodedLimit : Nat) (decoded : DecodedFields) :
    Decoder DecodedFields := do
  let name ← decodeString 3 0x08 (remainingBytes decodedLimit decoded.decodedBytes 0)
  let value ← decodeString 7 0x80 (remainingBytes decodedLimit decoded.decodedBytes name.length)
  appendField decodedLimit decoded (name, value)

def decodeField (decodedLimit : Nat) (decoded : DecodedFields) (first : Nat) :
    Decoder DecodedFields :=
  if first &&& 0x80 ≠ 0 then
    if first &&& 0x40 = 0 then
      Cursor.fail (.error "QPACK Indexed Field Line references the dynamic table")
    else decodeIndexed decodedLimit decoded
  else if first &&& 0x40 ≠ 0 then
    if first &&& 0x10 = 0 then
      Cursor.fail (.error "QPACK Literal Field Line name reference is dynamic")
    else decodeNameReference decodedLimit decoded
  else if first &&& 0x20 ≠ 0 then decodeLiteralName decodedLimit decoded
  else Cursor.fail (.error "QPACK post-base field line representations are not supported")

def countLimit : String := "QPACK field count exceeds the configured limit"

def decodeFields (maxFieldCount decodedLimit : Nat) (input : Bytes) :
    Nat → DecodedFields → Nat → Except DecodeFailure (List HeaderField)
  | 0, decoded, offset =>
    if input.length ≤ offset then .ok decoded.out else .error .unfinished
  | fuel + 1, decoded, offset =>
    if input.length ≤ offset then .ok decoded.out
    else if 0 < maxFieldCount ∧ maxFieldCount ≤ decoded.out.length then
      .error (.error countLimit)
    else match input[offset]? with
    | none => .error .outside
    | some first =>
      match decodeField decodedLimit decoded first.toNat input offset with
      | .ok (decoded, offset) => decodeFields maxFieldCount decodedLimit input fuel decoded offset
      | .error failure => .error failure

/-- The prefix must not refer to the dynamic table. -/
def decodeSectionPrefix : Decoder Unit := do
  let requiredInsertCount ← decodeInteger 8
  if requiredInsertCount ≠ 0 then
    Cursor.fail
      (.error "QPACK dynamic table is not supported (Required Insert Count != 0)")
  else
    let deltaBase ← decodeInteger 7
    if deltaBase ≠ 0 then
      Cursor.fail (.error "QPACK dynamic table is not supported (Base != 0)")
    else pure ()

def decodedLimit (maxDecodedBytes : Nat) : Nat :=
  if maxDecodedBytes = 0 then sizeMax else maxDecodedBytes

def decodeFieldSection (input : Bytes) (maxFieldCount maxDecodedBytes : Nat) :
    Except DecodeFailure (List HeaderField) :=
  match decodeSectionPrefix input 0 with
  | .error failure => .error failure
  | .ok ((), offset) =>
    decodeFields maxFieldCount (decodedLimit maxDecodedBytes) input input.length
      { out := [], decodedBytes := 0 } offset

end SwStack.Http3
