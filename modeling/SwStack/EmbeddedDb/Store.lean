import SwStack.EmbeddedDb.Types

/-! Blob files. A name leads to an inode; an open handle is the inode, so a reader that
has opened a file keeps it after its name is removed. Files only grow. -/
namespace SwStack.EmbeddedDb

open SwStack.Lib

structure BlobDir where
  names : SortedMap Nat Nat
  inodes : SortedMap Nat Bytes
  nextInode : Nat
  deriving DecidableEq

namespace BlobDir

def empty : BlobDir := { names := ∅, inodes := ∅, nextInode := 0 }

def contents (blobs : BlobDir) (inode : Nat) : Bytes := (blobs.inodes.find? inode).getD []

/-- `AppendCreate`: a missing file is created empty. -/
def openAppend (blobs : BlobDir) (fileId : Nat) : BlobDir × Nat :=
  match blobs.names.find? fileId with
  | some inode => (blobs, inode)
  | none =>
    ({ names := blobs.names.insert fileId blobs.nextInode
       inodes := blobs.inodes.insert blobs.nextInode []
       nextInode := blobs.nextInode + 1 }, blobs.nextInode)

def append (blobs : BlobDir) (inode : Nat) (bytes : Bytes) : BlobDir :=
  { blobs with inodes := blobs.inodes.insert inode (blobs.contents inode ++ bytes) }

def remove (blobs : BlobDir) (fileId : Nat) : BlobDir :=
  { blobs with names := blobs.names.erase fileId }

/-- A short read is an error, except that reading nothing succeeds anywhere. -/
def readAt (blobs : BlobDir) (inode offset length : Nat) : Option Bytes :=
  if length = 0 ∨ offset + length ≤ (blobs.contents inode).length then
    some (((blobs.contents inode).drop offset).take length)
  else none

def hasData (blobs : BlobDir) (fileId : Nat) : Bool :=
  match blobs.names.find? fileId with
  | some inode => fileId ≠ 0 && !(blobs.contents inode).isEmpty
  | none => false

end BlobDir

/-- Reading a reference through an open handle: range and checksum are checked. -/
def readBlob (blobs : BlobDir) (inode : Nat) (ref : BlobRef) : Option Bytes :=
  match blobs.readAt inode ref.offset ref.length with
  | some value => if crc32Bytes mzCrc32 value = ref.crc32 then some value else none
  | none => none

/-- `resolveValueLocked_`, which opens the file by name each time. -/
def resolveValueLocked (blobs : BlobDir) : StoredValue → Option Bytes
  | .inline value => some value
  | .blob ref =>
    match blobs.names.find? ref.fileId with
    | some inode => readBlob blobs inode ref
    | none => none

def externalizes (threshold : Nat) (record : PrimaryRecord) : Bool :=
  match record.live with
  | some { value := .inline value, .. } => threshold < value.length
  | _ => false

/-- The value moves to the end of the open blob file when it is over the threshold. -/
def externalizeBlobValueToFile (threshold blobFileId inode : Nat) (blobs : BlobDir)
    (record : PrimaryRecord) : BlobDir × PrimaryRecord :=
  match record.live with
  | some { value := .inline value, secondaryKeys } =>
    if threshold < value.length then
      let ref : BlobRef :=
        { fileId := blobFileId, offset := (blobs.contents inode).length, length := value.length
          crc32 := crc32Bytes mzCrc32 value, flags := 0 }
      (blobs.append inode value,
        { record with live := some { value := .blob ref, secondaryKeys } })
    else (blobs, record)
  | _ => (blobs, record)

/-- The records of a new primary table, in key order, with the blob file they fill. -/
def externalizeRecords (threshold blobFileId : Nat) (blobs : BlobDir) (records : PrimaryMemStore) :
    BlobDir × PrimaryMemStore :=
  if records.entries.any fun entry => externalizes threshold entry.2 then
    let (blobs, inode) := blobs.openAppend blobFileId
    records.entries.foldl (fun (blobs, written) entry =>
      let (blobs, record) := externalizeBlobValueToFile threshold blobFileId inode blobs entry.2
      (blobs, written.insert entry.1 record)) (blobs, ∅)
  else (blobs, records)

end SwStack.EmbeddedDb

/-! The writer overlay: what was written since the cached read model was built. Each
operation of a batch is mirrored into it, by the newest sequence. -/
namespace SwStack.EmbeddedDb

open SwStack.Lib

structure OverlayIndexEntry where
  deleted : Bool
  sequence : Nat
  secondaryKey : Bytes
  primaryKey : Bytes
  deriving DecidableEq

instance : Versioned OverlayIndexEntry := ⟨OverlayIndexEntry.sequence, OverlayIndexEntry.deleted⟩

structure WriterOverlay where
  baseSequence : Nat
  entryCount : Nat
  approximateBytes : Nat
  primary : PrimaryMemStore
  indexes : SortedMap IndexName (SortedMap Bytes OverlayIndexEntry)
  deriving DecidableEq

namespace WriterOverlay

def empty (baseSequence : Nat) : WriterOverlay :=
  { baseSequence, entryCount := 0, approximateBytes := 0, primary := ∅, indexes := ∅ }

def bucket (overlay : WriterOverlay) (indexName : IndexName) : SortedMap Bytes OverlayIndexEntry :=
  (overlay.indexes.find? indexName).getD ∅

end WriterOverlay

/-- Bytes of the inline value; a reference and a tombstone hold none. -/
def inlineValueBytes (record : PrimaryRecord) : Nat :=
  match record.live with
  | some { value := .inline value, .. } => value.length
  | _ => 0

def overlayStorePrimary (primaryKey : Bytes) (record : PrimaryRecord) (overlay : WriterOverlay) :
    WriterOverlay :=
  let newBytes := primaryKey.length + inlineValueBytes record + 64
  match overlay.primary.find? primaryKey with
  | some held =>
    if held.sequence ≤ record.sequence then
      { overlay with
        approximateBytes :=
          overlay.approximateBytes - (primaryKey.length + inlineValueBytes held + 64) + newBytes
        primary := overlay.primary.insert primaryKey record }
    else overlay
  | none =>
    { overlay with
      entryCount := overlay.entryCount + 1
      approximateBytes := overlay.approximateBytes + newBytes
      primary := overlay.primary.insert primaryKey record }

def overlayStoreIndexEntry (indexName : IndexName) (entry : OverlayIndexEntry)
    (overlay : WriterOverlay) : WriterOverlay :=
  let compositeKey := encodeIndexCompositeKey entry.secondaryKey entry.primaryKey
  let bucket := overlay.bucket indexName
  match bucket.find? compositeKey with
  | some held =>
    if held.sequence ≤ entry.sequence then
      { overlay with
        indexes := overlay.indexes.insert indexName (bucket.insert compositeKey entry) }
    else overlay
  | none =>
    { overlay with
      entryCount := overlay.entryCount + 1
      approximateBytes := overlay.approximateBytes + compositeKey.length + 48
      indexes := overlay.indexes.insert indexName (bucket.insert compositeKey entry) }

/-- The subscript creates the bucket of an index name even for an empty key list. -/
def overlayStoreIndexEntries (primaryKey : Bytes) (secondaryKeys : SecondaryKeys) (sequence : Nat)
    (deleted : Bool) (overlay : WriterOverlay) : WriterOverlay :=
  secondaryKeys.entries.foldl (fun overlay entry =>
    entry.2.foldl (fun overlay secondaryKey =>
      overlayStoreIndexEntry entry.1 { deleted, sequence, secondaryKey, primaryKey } overlay)
      { overlay with indexes := overlay.indexes.insert entry.1 (overlay.bucket entry.1) }) overlay

end SwStack.EmbeddedDb

/-! The tiers of the writer and how a batch reaches the mutable memtable. An operation
looks its key up in every tier first and is skipped when a newer version is met. -/
namespace SwStack.EmbeddedDb

open SwStack.Lib

/-- `immutables` is oldest first. An empty `maxKnownPrimaryKey` means that none is known. -/
structure Store where
  manifest : Manifest
  mutable : MemTable
  immutables : List MemTable
  maxKnownPrimaryKey : Bytes
  lastVisibleSequence : Nat
  applyGeneration : Nat
  deriving DecidableEq

namespace Store

/-- The memtables in search order. -/
def mems (store : Store) : List MemTable := store.mutable :: store.immutables.reverse

def aboveMaxKnown (store : Store) (key : Bytes) : Bool :=
  !store.maxKnownPrimaryKey.isEmpty && store.maxKnownPrimaryKey < key

def noteKey (store : Store) (key : Bytes) : Store :=
  if store.maxKnownPrimaryKey.isEmpty ∨ store.maxKnownPrimaryKey < key then
    { store with maxKnownPrimaryKey := key }
  else store

/-- The record `lookupPrimaryLocked_` leaves in `outRecord`: the first version met. -/
def outRecord (store : Store) (key : Bytes) : Option PrimaryRecord :=
  match firstHit (store.mems.map MemTable.primary) key with
  | some record => some record
  | none =>
    if store.aboveMaxKnown key then none else firstHit store.manifest.primaryTablesNewestFirst key

/-- A row as a caller sees it: value and secondary keys. -/
structure Found where
  value : Bytes
  secondaryKeys : SecondaryKeys
  sequence : Nat
  deriving DecidableEq

end Store

open Store (Found)

/-- The caller's view of a version: nothing for a tombstone or an unreadable value. -/
def resolveRecord (blobs : BlobDir) (record : PrimaryRecord) : Option Found :=
  match record.live with
  | none => none
  | some live =>
    match resolveValueLocked blobs live.value with
    | some value => some { value, secondaryKeys := live.secondaryKeys, sequence := record.sequence }
    | none => none

def lookupPrimaryLocked (blobs : BlobDir) (store : Store) (key : Bytes) : Option Found :=
  match store.outRecord key with
  | some record => resolveRecord blobs record
  | none => none

def emitSecondaryLocked (deleted : Bool) (primaryKey : Bytes) (secondaryKeys : SecondaryKeys)
    (sequence : Nat) (mem : MemTable) : MemTable :=
  secondaryKeys.entries.foldl (fun mem entry =>
    let bucket := entry.2.foldl (fun bucket secondaryKey =>
      offer (fun held offered => decide (held ≤ offered)) bucket
        (encodeIndexCompositeKey secondaryKey primaryKey, { deleted, sequence }))
      ((mem.secondary.find? entry.1).getD ∅)
    { mem with
      secondary := mem.secondary.insert entry.1 bucket
      approximateBytes := mem.approximateBytes +
        (entry.2.map fun secondaryKey => primaryKey.length + secondaryKey.length + 32).sum }) mem

def emitSecondaryTombstonesLocked : Bytes → SecondaryKeys → Nat → MemTable → MemTable :=
  emitSecondaryLocked true

def emitSecondaryUpsertsLocked : Bytes → SecondaryKeys → Nat → MemTable → MemTable :=
  emitSecondaryLocked false

def MemTable.noteFrame (activeWalId : Nat) (frame : Frame) (mem : MemTable) : MemTable :=
  { mem with
    walId := if mem.walId = 0 ∨ activeWalId < mem.walId then activeWalId else mem.walId
    minSeq := if mem.minSeq = 0 ∨ frame.sequence < mem.minSeq then frame.sequence else mem.minSeq
    maxSeq := max mem.maxSeq frame.sequence
    frames := mem.frames ++ [frame] }

/-- A bucket for every index name the batch's puts carry. -/
def MemTable.reserveBuckets (batch : WriteBatch) (mem : MemTable) : MemTable :=
  (batch.flatMap fun op => op.secondaryKeys.keys).foldl (fun mem indexName =>
    { mem with
      secondary := mem.secondary.insert indexName ((mem.secondary.find? indexName).getD ∅) }) mem

def MemTable.putPrimary (key : Bytes) (record : PrimaryRecord) (mem : MemTable) : MemTable :=
  { mem with primary := offer (fun held offered => decide (held ≤ offered)) mem.primary (key, record) }

def MemTable.addBytes (bytes : Nat) (mem : MemTable) : MemTable :=
  { mem with approximateBytes := mem.approximateBytes + bytes }

def MemTable.noteBlobFile (fileId : Nat) (mem : MemTable) : MemTable :=
  { mem with blobFileId := if mem.blobFileId = 0 then fileId else mem.blobFileId }

def BlobFields.toRef (blob : BlobFields) : BlobRef :=
  { fileId := blob.fileId.toNat, offset := blob.offset.toNat, length := blob.length.toNat
    crc32 := blob.crc32, flags := blob.flags }

/-- The version an operation writes. -/
def Operation.record (sequence : Nat) : Operation → PrimaryRecord
  | .put _ value secondaryKeys => { sequence, live := some { value := .inline value, secondaryKeys } }
  | .putBlobRef _ blob secondaryKeys =>
      { sequence, live := some { value := .blob blob.toRef, secondaryKeys } }
  | .erase _ => { sequence, live := none }

def Operation.memBytes : Operation → Nat
  | .put key value _ => key.length + value.length + 64
  | .putBlobRef key _ _ => key.length + 24 + 64
  | .erase key => key.length + 24

def Operation.noteBlobFile : Operation → MemTable → MemTable
  | .putBlobRef _ blob _, mem => mem.noteBlobFile blob.fileId.toNat
  | _, mem => mem

/-- One operation of a batch. `overlay` is mirrored only while a cached read model
exists; it never influences the tiers. -/
def applyOperation (sequence : Nat) (state : Store × WriterOverlay) (op : Operation) :
    Store × WriterOverlay :=
  let (store, overlay) := state
  let key := op.primaryKey
  let previous := if store.aboveMaxKnown key then none else store.outRecord key
  if (previous.map PrimaryRecord.sequence).getD 0 > sequence then (store, overlay)
  else
    let previousKeys := (previous.map PrimaryRecord.secondaryKeys).getD ∅
    let record := op.record sequence
    let mem := emitSecondaryTombstonesLocked key previousKeys sequence store.mutable
    let mem := emitSecondaryUpsertsLocked key op.secondaryKeys sequence (op.noteBlobFile mem)
    let mem := (mem.putPrimary key record).addBytes op.memBytes
    let overlay := overlayStoreIndexEntries key previousKeys sequence true overlay
    let overlay := overlayStoreIndexEntries key op.secondaryKeys sequence false overlay
    (({ store with mutable := mem }).noteKey key, overlayStorePrimary key record overlay)

/-- `applyBatchLockedMutable`, with the overlay it mirrors into. -/
def applyBatchLockedMutable (frame : Frame) (state : Store × WriterOverlay) :
    Store × WriterOverlay :=
  let store := { state.1 with
    applyGeneration := state.1.applyGeneration + 1
    mutable := (state.1.mutable.noteFrame state.1.manifest.activeWalId frame).reserveBuckets
      frame.batch }
  let (store, overlay) := frame.batch.foldl (applyOperation frame.sequence) (store, state.2)
  ({ store with lastVisibleSequence := max store.lastVisibleSequence frame.sequence }, overlay)

/-- The replay path, which runs without a cached read model. -/
def applyBatchLocked (frame : Frame) (store : Store) : Store :=
  (applyBatchLockedMutable frame (store, WriterOverlay.empty 0)).1

def rotateMutableToImmutableLocked (store : Store) : Store :=
  if store.mutable.isEmpty then store
  else
    { store with
      immutables := store.immutables ++ [store.mutable]
      manifest := { store.manifest with
        activeWalId := store.manifest.nextWalId, nextWalId := store.manifest.nextWalId + 1 }
      mutable := MemTable.new store.manifest.nextWalId }

/-- The oldest log any memtable still needs. -/
def replayFrom (store : Store) : Nat :=
  let start := if store.manifest.activeWalId = 0 then 1 else store.manifest.activeWalId
  (store.mutable :: store.immutables).foldl (fun start mem =>
    if mem.walId ≠ 0 then min start mem.walId else start) start

end SwStack.EmbeddedDb

/-! What the database directory holds. A log file is the list of frames appended to
it; those after the last sync are lost in a crash. Table contents travel with the
manifest that lists them. -/
namespace SwStack.EmbeddedDb

open SwStack.Lib

structure WalFile where
  synced : List Frame
  unsynced : List Frame
  deriving DecidableEq

def WalFile.frames (file : WalFile) : List Frame := file.synced ++ file.unsynced

def WalFile.empty : WalFile := { synced := [], unsynced := [] }

structure Disk where
  manifests : SortedMap Nat Manifest
  current : Option Nat
  wals : SortedMap Nat WalFile
  blobs : BlobDir
  deriving DecidableEq

/-- How `persistManifestLocked` ends: both files written, the manifest file not
written, or `CURRENT` not written. -/
inductive PersistOutcome where
  | ok
  | failManifest
  | failCurrent
  deriving DecidableEq

namespace Disk

def empty : Disk := { manifests := ∅, current := none, wals := ∅, blobs := BlobDir.empty }

/-- The manifest a reopening process reads. -/
def persisted (disk : Disk) : Option Manifest := disk.current.bind disk.manifests.find?

def wal (disk : Disk) (walId : Nat) : WalFile := (disk.wals.find? walId).getD WalFile.empty

/-- The saved text has the id before the increment, so the first save after a reopen
writes over the live manifest file. -/
def persistManifestLocked (outcome : PersistOutcome) (manifest : Manifest) (disk : Disk) : Disk :=
  match outcome with
  | .ok =>
    { disk with
      manifests := disk.manifests.insert manifest.manifestId manifest
      current := some manifest.manifestId }
  | .failManifest => disk
  | .failCurrent =>
    { disk with manifests := disk.manifests.insert manifest.manifestId manifest }

/-- `openActiveWal` opens for append and creates a missing file. -/
def openWal (walId : Nat) (disk : Disk) : Disk :=
  { disk with wals := disk.wals.insert walId (disk.wal walId) }

def appendWal (walId : Nat) (frames : List Frame) (disk : Disk) : Disk :=
  let file := disk.wal walId
  { disk with wals := disk.wals.insert walId { file with unsynced := file.unsynced ++ frames } }

def syncWal (walId : Nat) (disk : Disk) : Disk :=
  { disk with wals := disk.wals.insert walId { synced := (disk.wal walId).frames, unsynced := [] } }

/-- Only synced bytes survive. -/
def crash (disk : Disk) : Disk :=
  { disk with wals := disk.wals.mapValues fun _ file => { file with unsynced := [] } }

/-- The deletion in `cleanupCoveredWalFilesLocked`. -/
def removeCoveredWals (replayFromWalId activeWalFileId : Nat) (disk : Disk) : Disk :=
  { disk with
    wals := disk.wals.filter fun walId _ =>
      !(walId ≠ 0 && walId < replayFromWalId && walId ≠ activeWalFileId) }

end Disk

/-- `mutable_.walId` follows the oldest log a replayed frame came from. -/
def replayFrame (walId : Nat) (store : Store) (frame : Frame) : Store :=
  if frame.sequence ≤ store.manifest.maxSequence then store
  else
    let mem := store.mutable
    let mem := { mem with walId := if mem.walId = 0 ∨ walId < mem.walId then walId else mem.walId }
    let store := applyBatchLocked frame { store with mutable := mem }
    { store with lastVisibleSequence := max store.lastVisibleSequence frame.sequence }

def replayWalFileLocked (store : Store) (entry : Nat × WalFile) : Store :=
  entry.2.frames.foldl (replayFrame entry.1) store

/-- The log files at or above `replayFromWalId`, in id order. -/
def replayedWals (wals : SortedMap Nat WalFile) (manifest : Manifest) : List (Nat × WalFile) :=
  wals.entries.filter fun entry => !(entry.1 < manifest.replayFromWalId)

def replayWalLocked (wals : SortedMap Nat WalFile) (store : Store) : Store :=
  (replayedWals wals store.manifest).foldl replayWalFileLocked store

/-- Proof-only: the frames replay applies, each with its file. -/
def replayedFrames (wals : SortedMap Nat WalFile) (manifest : Manifest) : List (Nat × Frame) :=
  (replayedWals wals manifest).flatMap fun entry =>
    (entry.2.frames.filter fun frame => manifest.maxSequence < frame.sequence).map fun frame =>
      (entry.1, frame)

def maxUserKey (records : PrimaryMemStore) : Bytes :=
  (records.entries.getLast?.map Prod.fst).getD []

/-- The table part of `maxKnownPrimaryKey_`, which is never lowered. -/
def rebuildTableCachesLocked (store : Store) : Store :=
  store.manifest.primaryTablesNewestFirst.foldl (fun store records =>
    store.noteKey (maxUserKey records)) store

def maxWalId (wals : SortedMap Nat WalFile) : Nat := wals.keys.foldl max 0

def normalizeIdsLocked (wals : SortedMap Nat WalFile) (manifest : Manifest) : Manifest :=
  let maxTableId := manifest.tables.foldl (fun held table => max (max held table.fileId)
    table.blobFileId) 0
  { manifest with
    nextWalId := max manifest.nextWalId (maxWalId wals + 1)
    activeWalId := max manifest.activeWalId (if maxWalId wals = 0 then 1 else maxWalId wals)
    nextTableId := max manifest.nextTableId (maxTableId + 1) }

/-- The tiers `loadFromDisk` builds from a manifest and the log files it finds. -/
def loadStore (wals : SortedMap Nat WalFile) (manifest : Manifest) : Store :=
  let store : Store :=
    { manifest, mutable := MemTable.new manifest.activeWalId, immutables := []
      maxKnownPrimaryKey := [], lastVisibleSequence := manifest.maxSequence, applyGeneration := 0 }
  replayWalLocked wals (rebuildTableCachesLocked store)

end SwStack.EmbeddedDb
