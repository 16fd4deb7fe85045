import SwStack.EmbeddedDb.Wal
import SwStack.Lib.Versions
import SwStack.Types.ByteArray

/-! Records, memtables, tables and the manifest. A record is a live payload or a
tombstone, so a tombstone never carries a value or secondary keys. -/
namespace SwStack.EmbeddedDb

open SwStack.Lib

/-- Every value the log accepts is shorter than `2 ^ 32`, so the length field of a
reference the flush writes is never cut. -/
structure BlobRef where
  fileId : Nat
  offset : Nat
  length : Nat
  crc32 : UInt32
  flags : UInt32
  deriving DecidableEq

inductive StoredValue where
  | inline (value : Bytes)
  | blob (ref : BlobRef)
  deriving DecidableEq

structure LiveRecord where
  value : StoredValue
  secondaryKeys : SecondaryKeys
  deriving DecidableEq

structure PrimaryRecord where
  sequence : Nat
  live : Option LiveRecord
  deriving DecidableEq

namespace PrimaryRecord

def deleted (record : PrimaryRecord) : Bool := record.live.isNone

def secondaryKeys (record : PrimaryRecord) : SecondaryKeys :=
  match record.live with
  | some live => live.secondaryKeys
  | none => ∅

instance : Versioned PrimaryRecord := ⟨sequence, deleted⟩

end PrimaryRecord

structure SecondaryEntry where
  deleted : Bool
  sequence : Nat
  deriving DecidableEq

instance : Versioned SecondaryEntry := ⟨SecondaryEntry.sequence, SecondaryEntry.deleted⟩

abbrev PrimaryMemStore := SortedMap Bytes PrimaryRecord

abbrev SecondaryMemStore := SortedMap Bytes SecondaryEntry

/-- A batch under the sequence it was given. -/
structure Frame where
  sequence : Nat
  batch : WriteBatch
  deriving DecidableEq

/-- `frames` is proof-only: the batches applied to this memtable. -/
structure MemTable where
  walId : Nat
  blobFileId : Nat
  minSeq : Nat
  maxSeq : Nat
  approximateBytes : Nat
  primary : PrimaryMemStore
  secondary : SortedMap IndexName SecondaryMemStore
  frames : List Frame
  deriving DecidableEq

namespace MemTable

def new (walId : Nat) : MemTable :=
  { walId, blobFileId := 0, minSeq := 0, maxSeq := 0, approximateBytes := 0, primary := ∅,
    secondary := ∅, frames := [] }

/-- The test of `rotateMutableToImmutableLocked_` and of the flush. -/
def isEmpty (mem : MemTable) : Bool := mem.primary.isEmpty && mem.secondary.isEmpty

end MemTable

inductive TableContent where
  | primary (records : PrimaryMemStore)
  | index (indexName : IndexName) (entries : SecondaryMemStore)
  deriving DecidableEq

/-- A table file with its contents. Files are written once, under a fresh name made of
level and id, and an open handle outlives the file's removal. -/
structure Table where
  level : Nat
  fileId : Nat
  blobFileId : Nat
  content : TableContent
  deriving DecidableEq

namespace Table

def primary? (table : Table) : Option PrimaryMemStore :=
  match table.content with
  | .primary records => some records
  | .index _ _ => none

def index? (indexName : IndexName) (table : Table) : Option SecondaryMemStore :=
  match table.content with
  | .primary _ => none
  | .index name entries => if name = indexName then some entries else none

def sameFile (left right : Table) : Bool :=
  left.level == right.level && left.fileId == right.fileId

end Table

/-- `frames` is proof-only: the batches whose effect the tables carry. It is saved and
rolled back with the manifest. -/
structure Manifest where
  manifestId : Nat
  maxSequence : Nat
  replayFromWalId : Nat
  activeWalId : Nat
  nextWalId : Nat
  nextTableId : Nat
  tables : List Table
  frames : List Frame
  deriving DecidableEq

def Manifest.initial : Manifest :=
  { manifestId := 1, maxSequence := 0, replayFromWalId := 1, activeWalId := 1, nextWalId := 2,
    nextTableId := 1, tables := [], frames := [] }

/-- Neither sorts after the other in the search order: lower level, then higher id. -/
def NewestFirst (left right : Table) : Prop :=
  left.level < right.level ∨ left.level = right.level ∧ right.fileId ≤ left.fileId

instance : DecidableRel NewestFirst := fun left right =>
  inferInstanceAs (Decidable (left.level < right.level ∨
    left.level = right.level ∧ right.fileId ≤ left.fileId))

def OldestFirst (left right : Table) : Prop := NewestFirst right left

instance : DecidableRel OldestFirst := fun left right =>
  inferInstanceAs (Decidable (NewestFirst right left))

namespace Manifest

def tablesNewestFirst (manifest : Manifest) : List Table :=
  manifest.tables.insertionSort NewestFirst

def tablesOldestFirst (manifest : Manifest) : List Table :=
  manifest.tables.insertionSort OldestFirst

/-- `primaryTableHandlesNewestFirst_` -/
def primaryTablesNewestFirst (manifest : Manifest) : List PrimaryMemStore :=
  manifest.tablesNewestFirst.filterMap Table.primary?

end Manifest

structure Options where
  lazyWrite : Bool
  memTableBytes : Nat
  inlineBlobThresholdBytes : Nat
  deriving DecidableEq

/-- A key is escaped only when it is found to contain a zero byte. -/
def appendEncodedFieldKey (out key : Bytes) : Bytes :=
  if !Types.contains key 0 then (if key.isEmpty then out else out ++ key) ++ [0, 0]
  else key.foldl (fun out ch => if ch = 0 then (out ++ [0]) ++ [255] else out ++ [ch]) out ++ [0, 0]

def encodeIndexCompositeKey (secondaryKey primaryKey : Bytes) : Bytes :=
  appendEncodedFieldKey (appendEncodedFieldKey [] secondaryKey) primaryKey

end SwStack.EmbeddedDb
