import SwStack.Lib.Reader
import SwStack.Lib.SortedMap

/-! Write batches as callers build them. Byte arrays and strings are byte lists;
an operation carries either an inline value or a blob reference, never both.
JSON payloads are serialized before a persistent write and are not modelled. -/
namespace SwStack.EmbeddedDb

open SwStack.Lib

abbrev IndexName := Bytes

abbrev SecondaryKeys := SortedMap IndexName (List Bytes)

/-- The blob fields of an operation, in their widths on the wire. -/
structure BlobFields where
  fileId : UInt64
  offset : UInt64
  length : UInt32
  crc32 : UInt32
  flags : UInt32
  deriving DecidableEq

inductive Operation where
  | put (primaryKey value : Bytes) (secondaryKeys : SecondaryKeys)
  | putBlobRef (primaryKey : Bytes) (blob : BlobFields) (secondaryKeys : SecondaryKeys)
  | erase (primaryKey : Bytes)
  deriving DecidableEq

namespace Operation

def primaryKey : Operation → Bytes
  | put key _ _ | putBlobRef key _ _ | erase key => key

def secondaryKeys : Operation → SecondaryKeys
  | put _ _ keys | putBlobRef _ _ keys => keys
  | erase _ => ∅

end Operation

abbrev WriteBatch := List Operation

def estimateIndexWalBytes (entry : IndexName × List Bytes) : Nat :=
  4 + entry.1.length + 4 + (entry.2.map fun key => 4 + key.length).sum

def estimateSecondaryKeysWalBytes (keys : SecondaryKeys) : Nat :=
  4 + (keys.entries.map estimateIndexWalBytes).sum

def estimateOperationWalBytes : Operation → Nat
  | .put key value keys =>
      1 + 4 + key.length + (4 + value.length) + estimateSecondaryKeysWalBytes keys
  | .putBlobRef key _ keys =>
      1 + 4 + key.length + (8 + 8 + 4 + 4 + 4) + estimateSecondaryKeysWalBytes keys
  | .erase key => 1 + 4 + key.length

def estimatedWalBytes (batch : WriteBatch) : Nat :=
  12 + (batch.map estimateOperationWalBytes).sum

end SwStack.EmbeddedDb

/-! The write-ahead-log frame: eight magic bytes, payload length, checksum,
payload. The checksum is a parameter; only its value on equal payloads matters. -/
namespace SwStack.EmbeddedDb

open SwStack.Lib

def writeU32LE (value : UInt32) : Bytes := littleEndian value.toNat 4

def writeU64LE (value : UInt64) : Bytes := littleEndian value.toNat 8

def readU8 : Reader UInt8 UInt8 := do
  let byte ← readNumber 1
  pure (UInt8.ofNat byte)

def readU32LE : Reader UInt8 UInt32 := do
  let value ← readNumber 4
  pure (UInt32.ofNat value)

def readU64LE : Reader UInt8 UInt64 := do
  let value ← readNumber 8
  pure (UInt64.ofNat value)

def writeBytes (bytes : Bytes) : Bytes := writeU32LE (UInt32.ofNat bytes.length) ++ bytes

def readBytes : Reader UInt8 Bytes := do
  let length ← readU32LE
  Reader.take length.toNat

def writeList (encode : α → Bytes) (values : List α) : Bytes :=
  writeU32LE (UInt32.ofNat values.length) ++ values.flatMap encode

def readList (reader : Reader UInt8 α) : Reader UInt8 (List α) := do
  let count ← readU32LE
  reader.times count.toNat

def writeIndexKeys (entry : IndexName × List Bytes) : Bytes :=
  writeBytes entry.1 ++ writeList writeBytes entry.2

def readIndexKeys : Reader UInt8 (IndexName × List Bytes) := do
  let indexName ← readBytes
  let keys ← readList readBytes
  pure (indexName, keys)

def writeSecondaryKeys (keys : SecondaryKeys) : Bytes := writeList writeIndexKeys keys.entries

/-- A repeated index name overwrites the earlier list, as assignment through the
map's subscript does. -/
def decodeSecondaryKeys : Reader UInt8 SecondaryKeys := do
  let entries ← readList readIndexKeys
  pure (SortedMap.ofList entries)

def writeBlobFields (blob : BlobFields) : Bytes :=
  writeU64LE blob.fileId ++ (writeU64LE blob.offset ++ (writeU32LE blob.length ++
    (writeU32LE blob.crc32 ++ writeU32LE blob.flags)))

def readBlobFields : Reader UInt8 BlobFields := do
  let fileId ← readU64LE
  let offset ← readU64LE
  let length ← readU32LE
  let crc32 ← readU32LE
  let flags ← readU32LE
  pure { fileId, offset, length, crc32, flags }

def writeOperation : Operation → Bytes
  | .put key value keys => 0 :: (writeBytes key ++ (writeBytes value ++ writeSecondaryKeys keys))
  | .putBlobRef key blob keys =>
      2 :: (writeBytes key ++ (writeBlobFields blob ++ writeSecondaryKeys keys))
  | .erase key => 1 :: writeBytes key

def readOperation : Reader UInt8 Operation := do
  let type ← readU8
  let primaryKey ← readBytes
  if type = 0 then
    let value ← readBytes
    let keys ← decodeSecondaryKeys
    pure (.put primaryKey value keys)
  else if type = 2 then
    let blob ← readBlobFields
    let keys ← decodeSecondaryKeys
    pure (.putBlobRef primaryKey blob keys)
  else if type = 1 then pure (.erase primaryKey)
  else Reader.fail

structure WalFrame where
  sequence : UInt64
  batch : WriteBatch
  deriving DecidableEq

def readWalPayload : Reader UInt8 WalFrame := do
  let sequence ← readU64LE
  let batch ← readList readOperation
  pure { sequence, batch }

/-- The whole payload has to be consumed. -/
def decodeWalPayload (payload : Bytes) : Option WalFrame :=
  match readWalPayload payload with
  | some (frame, []) => some frame
  | _ => none

def writeWalPayload (frame : WalFrame) : Bytes :=
  writeU64LE frame.sequence ++ writeList writeOperation frame.batch

/-- `SWDBWAL1` -/
def walMagic : Bytes := [83, 87, 68, 66, 87, 65, 76, 49]

/-- The compact form of `mz_crc32` in the same vendored file; the table form computes
the same checksum. -/
def mzCrc32 (payload : Bytes) : UInt32 :=
  let table : List UInt32 := [0x00000000, 0x1db71064, 0x3b6e20c8, 0x26d930ac, 0x76dc4190,
    0x6b6b51f4, 0x4db26158, 0x5005713c, 0xedb88320, 0xf00f9344, 0xd6d6a3e8, 0xcb61b38c,
    0x9b64c2b0, 0x86d3d2d4, 0xa00ae278, 0xbdbdf21c]
  let nibble (crc : UInt32) (value : UInt8) : UInt32 :=
    (crc >>> 4) ^^^ table.getD ((crc &&& 0xF) ^^^ value.toUInt32).toNat 0
  ~~~ payload.foldl (fun crc byte => nibble (nibble crc (byte &&& 0xF)) (byte >>> 4)) (~~~ 0)

variable (crc32 : Bytes → UInt32)

def crc32Bytes (payload : Bytes) : UInt32 := if payload.isEmpty then 0 else crc32 payload

/-- The frame buffer has room for the estimated payload length, cut to 32 bits.
A payload longer than that is written past the buffer, where the source's
behaviour is undefined; no frame is produced then. -/
def appendWalFrame (out : Bytes) (frame : WalFrame) : Option Bytes :=
  let payloadBytes := UInt32.ofNat (estimatedWalBytes frame.batch)
  let payload := writeWalPayload frame
  if payload.length ≤ payloadBytes.toNat then
    let room := payload ++ List.replicate (payloadBytes.toNat - payload.length) 0
    some (out ++ (walMagic ++ (writeU32LE payloadBytes ++ (writeU32LE (crc32 room) ++ room))))
  else none

def appendWalFrames (frames : List WalFrame) : Option Bytes :=
  frames.foldlM (appendWalFrame crc32) []

end SwStack.EmbeddedDb
