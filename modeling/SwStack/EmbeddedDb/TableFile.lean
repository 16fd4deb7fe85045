import SwStack.EmbeddedDb.Wal
import SwStack.Lib.Bisect

/-! Table files: blocks of records behind a header, then the index of the blocks, a bloom filter of
the keys and a footer. Sizes are stored on 32 bits. -/
namespace SwStack.EmbeddedDb.TableFile

open SwStack.Lib

structure TableRecord where
  userKey : Bytes
  sequence : UInt64
  flags : UInt32
  payload : Bytes
  deriving DecidableEq

def encodeTableRecord (record : TableRecord) : Bytes :=
  writeBytes record.userKey ++ (writeU64LE record.sequence ++ (writeU32LE record.flags ++
    writeBytes record.payload))

def decodeTableRecord : Reader UInt8 TableRecord := do
  let userKey ← readBytes
  let sequence ← readU64LE
  let flags ← readU32LE
  let payload ← readBytes
  pure { userKey, sequence, flags, payload }

structure TableMeta where
  kind : UInt32
  minSequence : UInt64
  maxSequence : UInt64
  recordCount : UInt64
  indexName : IndexName
  deriving DecidableEq

structure BlockIndexEntry where
  firstKey : Bytes
  offset : UInt64
  bytes : UInt32
  deriving DecidableEq

structure BloomFilter where
  bytes : Bytes
  hashCount : UInt32
  deriving DecidableEq

def hash64 (data : Bytes) (seed : UInt64) : UInt64 :=
  data.foldl (fun h byte => (h ^^^ byte.toUInt64) * 1099511628211) seed

namespace BloomFilter

def initialized (keyCount : Nat) : BloomFilter :=
  { bytes := List.replicate ((max 256 (keyCount * 10) + 7) / 8) 0, hashCount := 6 }

/-- The bits of a key, in a filter of so many bits. -/
def keyBits (hashCount : UInt32) (bitCount : Nat) (key : Bytes) : List Nat :=
  let h1 := hash64 key 1469598103934665603
  let h2 := hash64 key 1099511628211
  (List.range hashCount.toNat).map fun i => (h1 + UInt64.ofNat i * h2).toNat % bitCount

def bitMask (bit : Nat) : UInt8 := 1 <<< UInt8.ofNat (bit % 8)

def setBit (bytes : Bytes) (bit : Nat) : Bytes := bytes.modify (bit / 8) (· ||| bitMask bit)

def add (key : Bytes) (filter : BloomFilter) : BloomFilter :=
  let filter := if filter.bytes.isEmpty then initialized 1 else filter
  { filter with
    bytes := (keyBits filter.hashCount (filter.bytes.length * 8) key).foldl setBit filter.bytes }

def mayContain (key : Bytes) (filter : BloomFilter) : Bool :=
  filter.bytes.isEmpty ||
    (keyBits filter.hashCount (filter.bytes.length * 8) key).all fun bit =>
      filter.bytes.getD (bit / 8) 0 &&& bitMask bit != 0

end BloomFilter

def kBlockSize : UInt32 := 64 * 1024

/-- `SWDBSST1` -/
def kTableMagic : Bytes := [83, 87, 68, 66, 83, 83, 84, 49]

/-- `SWDBFTR1` -/
def kFooterMagic : Bytes := [83, 87, 68, 66, 70, 84, 82, 49]

/-- What has been written of a table, and the block that is open. -/
structure Writer where
  file : Bytes
  blocks : List BlockIndexEntry
  bloom : BloomFilter
  blockPayload : Bytes
  firstKey : Bytes

variable (crc32 : Bytes → UInt32)

/-- A block with its size and checksum. -/
def blockFrame (blockPayload : Bytes) : Bytes :=
  writeU32LE (.ofNat blockPayload.length) ++ (writeU32LE (crc32Bytes crc32 blockPayload) ++
    blockPayload)

def flushBlock (writer : Writer) : Writer :=
  if writer.blockPayload.isEmpty then writer
  else
    let frame := blockFrame crc32 writer.blockPayload
    { writer with
      file := writer.file ++ frame
      blocks := writer.blocks ++ [{
        firstKey := writer.firstKey
        offset := .ofNat writer.file.length
        bytes := .ofNat frame.length }] }

def writeRecord (writer : Writer) (record : TableRecord) : Writer :=
  let encoded := encodeTableRecord record
  let writer :=
    if !writer.blockPayload.isEmpty &&
        decide (kBlockSize < .ofNat (writer.blockPayload.length + encoded.length)) then
      { flushBlock crc32 writer with blockPayload := [], firstKey := [] }
    else writer
  { writer with
    bloom := writer.bloom.add record.userKey
    firstKey := if writer.blockPayload.isEmpty then record.userKey else writer.firstKey
    blockPayload := writer.blockPayload ++ encoded }

def tableHeader (tableMeta : TableMeta) : Bytes :=
  kTableMagic ++ (writeU32LE 1 ++ (writeU32LE tableMeta.kind ++
    (writeU64LE tableMeta.minSequence ++ (writeU64LE tableMeta.maxSequence ++
      (writeU64LE tableMeta.recordCount ++ (writeU32LE (.ofNat tableMeta.indexName.length) ++
        (writeU32LE kBlockSize ++ tableMeta.indexName)))))))

def writeIndexEntry (entry : BlockIndexEntry) : Bytes :=
  writeBytes entry.firstKey ++ (writeU64LE entry.offset ++ writeU32LE entry.bytes)

def sparseIndex (blocks : List BlockIndexEntry) : Bytes := writeList writeIndexEntry blocks

def bloomPayload (bloom : BloomFilter) : Bytes := writeU32LE bloom.hashCount ++ writeBytes bloom.bytes

def tableFooter (tableMeta : TableMeta) (sparseOffset bloomOffset : UInt64) : Bytes :=
  kFooterMagic ++ (writeU64LE sparseOffset ++ (writeU64LE bloomOffset ++
    (writeU64LE tableMeta.maxSequence ++ (writeU64LE tableMeta.recordCount ++
      writeU32LE tableMeta.kind))))

/-- The file of a table, when no write fails. Nothing is written for an empty list. -/
def writeTableFile (tableMeta : TableMeta) (records : List TableRecord) : Option Bytes :=
  if records.isEmpty then none
  else
    let header := tableHeader tableMeta
    let writer := flushBlock crc32 (records.foldl (writeRecord crc32) {
      file := header
      blocks := []
      bloom := .initialized records.length
      blockPayload := []
      firstKey := [] })
    let sparse := sparseIndex writer.blocks
    let sparseOffset := writer.file.length
    let bloomOffset := sparseOffset + sparse.length
    some (writer.file ++ (sparse ++ (bloomPayload writer.bloom ++
      tableFooter tableMeta (.ofNat sparseOffset) (.ofNat bloomOffset))))

structure TableHandle where
  file : Bytes
  blocks : List BlockIndexEntry
  bloom : BloomFilter
  kind : UInt32
  minSequence : UInt64
  maxSequence : UInt64
  recordCount : UInt64
  indexName : IndexName
  minUserKey : Bytes
  maxUserKey : Bytes

structure TableHeader where
  kind : UInt32
  minSequence : UInt64
  maxSequence : UInt64
  recordCount : UInt64
  indexName : IndexName

/-- The header behind the magic bytes. -/
def readHeader : Reader UInt8 TableHeader := do
  let version ← readU32LE
  let kind ← readU32LE
  let minSequence ← readU64LE
  let maxSequence ← readU64LE
  let recordCount ← readU64LE
  let indexNameLen ← readU32LE
  let _ ← readU32LE
  if version ≠ 1 then Reader.fail
  else
    let indexName ← Reader.take indexNameLen.toNat
    pure { kind, minSequence, maxSequence, recordCount, indexName }

structure TableFooter where
  sparseOffset : UInt64
  bloomOffset : UInt64
  maxSequence : UInt64
  recordCount : UInt64
  kind : UInt32

/-- The footer behind the magic bytes. -/
def readFooter : Reader UInt8 TableFooter := do
  let sparseOffset ← readU64LE
  let bloomOffset ← readU64LE
  let maxSequence ← readU64LE
  let recordCount ← readU64LE
  let kind ← readU32LE
  pure { sparseOffset, bloomOffset, maxSequence, recordCount, kind }

/-- The bytes of a file between two offsets. -/
def between (file : Bytes) (first last : Nat) : Bytes := (file.take last).drop first

def readIndexEntry : Reader UInt8 BlockIndexEntry := do
  let firstKey ← readBytes
  let offset ← readU64LE
  let bytes ← readU32LE
  pure { firstKey, offset, bytes }

def parseSparseIndex (bytes : Bytes) : Except String (List BlockIndexEntry) :=
  match readU32LE bytes with
  | none => .error "invalid sparse index"
  | some (blockCount, rest) =>
    match readIndexEntry.times blockCount.toNat rest with
    | none => .error "invalid sparse entry"
    | some (blocks, _) => .ok blocks

def readBloom : Reader UInt8 BloomFilter := do
  let hashCount ← readU32LE
  let bytes ← readBytes
  pure { bytes, hashCount }

def parseBloom (bytes : Bytes) : Except String BloomFilter :=
  match readBloom bytes with
  | none => .error "invalid bloom section"
  | some (bloom, _) => .ok bloom

/-- The payload of a block and its checksum. -/
def readBlock : Reader UInt8 (Bytes × UInt32) := do
  let payloadBytes ← readU32LE
  let crc ← readU32LE
  let payload ← Reader.take payloadBytes.toNat
  pure (payload, crc)

def locateBlockPayload (file : Bytes) (block : BlockIndexEntry) : Option (Bytes × UInt32) :=
  if file.length < (block.offset + block.bytes.toUInt64).toNat then none
  else (readBlock ((file.drop block.offset.toNat).take block.bytes.toNat)).map Prod.fst

def validateBlocks (file : Bytes) : List BlockIndexEntry → Except String Unit
  | [] => .ok ()
  | block :: blocks =>
    match locateBlockPayload file block with
    | none => .error "invalid table block header"
    | some (payload, crc) =>
      if crc32 payload ≠ crc then .error "table block checksum mismatch"
      else validateBlocks file blocks

/-- All the records of a payload, if there is nothing else in it. -/
def decodeRecords : Nat → Bytes → Option (List TableRecord)
  | 0, _ => some []
  | fuel + 1, payload =>
    if payload.isEmpty then some []
    else do
      let (record, rest) ← decodeTableRecord payload
      let records ← decodeRecords fuel rest
      some (record :: records)

def decodeBlock (file : Bytes) (block : BlockIndexEntry) : Option (List TableRecord) := do
  let (payload, _) ← locateBlockPayload file block
  decodeRecords payload.length payload

/-- The least and the greatest key, each empty when there is none. -/
def resolveKeyRange (file : Bytes) (blocks : List BlockIndexEntry) :
    Except String (Bytes × Bytes) :=
  match blocks.head?, blocks.getLast? with
  | some first, some last =>
    match decodeBlock file last with
    | none => .error "failed to decode last table block"
    | some records => .ok (first.firstKey, (records.getLast?.map TableRecord.userKey).getD [])
  | _, _ => .ok ([], [])

def kFooterBytes : Nat := 44

/-- A table of a file, or what is wrong with the file. -/
def parse (file : Bytes) : Except String TableHandle :=
  if file.length < kFooterBytes then .error "table too small"
  else if file.take 8 ≠ kTableMagic then .error "invalid table magic"
  else
    match readHeader (file.drop 8) with
    | none => .error "invalid table header"
    | some (header, _) =>
      let footer := file.drop (file.length - kFooterBytes)
      if footer.take 8 ≠ kFooterMagic then .error "invalid table footer"
      else
        match readFooter (footer.drop 8) with
        | none => .error "table footer mismatch"
        | some (footer, _) =>
          if footer.maxSequence ≠ header.maxSequence ∨ footer.recordCount ≠ header.recordCount ∨
              footer.kind ≠ header.kind then .error "table footer mismatch"
          else do
            let blocks ← parseSparseIndex
              (between file footer.sparseOffset.toNat footer.bloomOffset.toNat)
            let bloom ← parseBloom
              (between file footer.bloomOffset.toNat (file.length - kFooterBytes))
            validateBlocks crc32 file blocks
            let (minUserKey, maxUserKey) ← resolveKeyRange file blocks
            .ok {
              file
              blocks
              bloom
              kind := header.kind
              minSequence := header.minSequence
              maxSequence := header.maxSequence
              recordCount := header.recordCount
              indexName := header.indexName
              minUserKey
              maxUserKey }

namespace TableHandle

def iterateFrom (file : Bytes) : List BlockIndexEntry → Option (List TableRecord)
  | [] => some []
  | block :: blocks => do
    let records ← decodeBlock file block
    let more ← iterateFrom file blocks
    some (records ++ more)

def iterateAll (handle : TableHandle) : Option (List TableRecord) :=
  iterateFrom handle.file handle.blocks

/-- The last block whose first key is not above the key, as a number on 32 signed bits. -/
def findCandidateBlockIndex (handle : TableHandle) (key : Bytes) : Int :=
  let low := bisect (fun mid => decide (((handle.blocks[mid]?.map BlockIndexEntry.firstKey).getD []) ≤ key))
    handle.blocks.length 0 handle.blocks.length
  if low = 0 then -1 else Int.bmod (low - 1) (2 ^ 32)

end TableHandle

/-- Bytes compared up to the first that differs, of as many as both have. -/
def memcmp : Bytes → Bytes → Ordering
  | left :: lefts, right :: rights =>
    if left < right then .lt else if right < left then .gt else memcmp lefts rights
  | _, _ => .eq

def compareKeys (recordKey key : Bytes) : Ordering :=
  let shared := min recordKey.length key.length
  (memcmp (recordKey.take shared) (key.take shared)).then (compare recordKey.length key.length)

/-- The record of a key among those of a payload, up to the first with a greater key. -/
def scanRecordsForKey (key : Bytes) : Nat → Bytes → Option TableRecord
  | 0, _ => none
  | fuel + 1, payload =>
    if payload.isEmpty then none
    else
      match decodeTableRecord payload with
      | none => none
      | some (record, rest) =>
        match compareKeys record.userKey key with
        | .eq => some { record with userKey := key }
        | .lt => scanRecordsForKey key fuel rest
        | .gt => none

namespace TableHandle

def scanBlockForKey (handle : TableHandle) (block : BlockIndexEntry) (key : Bytes) :
    Option TableRecord := do
  let (payload, _) ← locateBlockPayload handle.file block
  scanRecordsForKey key payload.length payload

def findRecord (handle : TableHandle) (key : Bytes) : Option TableRecord :=
  if handle.blocks.isEmpty ∨ !handle.bloom.mayContain key ∨
      (!handle.minUserKey.isEmpty ∧ key < handle.minUserKey) ∨
      (!handle.maxUserKey.isEmpty ∧ handle.maxUserKey < key) then none
  else
    let candidate := handle.findCandidateBlockIndex key
    if candidate < 0 then none
    else do
      let block ← handle.blocks[candidate.toNat]?
      handle.scanBlockForKey block key

end TableHandle

end SwStack.EmbeddedDb.TableFile
