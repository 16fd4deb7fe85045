import SwStack.EmbeddedDb.Maintenance
import SwStack.Lib.Iteration

/-! The materialised read model: live primary rows in key order, and for each index
name the rows its live records ask for, in composite key order. Index tables are not
consulted; index rows come from the primary records alone. -/
namespace SwStack.EmbeddedDb

open SwStack.Lib

structure ReadPrimaryRow where
  primaryKey : Bytes
  live : LiveRecord
  sequence : Nat
  deriving DecidableEq

structure ReadIndexRow where
  compositeKey : Bytes
  secondaryKey : Bytes
  primarySegmentIndex : Nat
  primaryRowIndex : Nat
  deriving DecidableEq

structure ReadModel where
  visibleSequence : Nat
  approximateBytes : Nat
  primarySegments : List (List ReadPrimaryRow)
  indexSegments : SortedMap IndexName (List (List ReadIndexRow))
  deriving DecidableEq

def rowsPerSegment : Nat := 1024

def estimateSecondaryKeysBytes (keys : SecondaryKeys) : Nat :=
  (keys.entries.map fun entry => entry.1.length + (entry.2.map List.length).sum).sum

def estimatePrimaryRowBytes (row : ReadPrimaryRow) : Nat :=
  let valueBytes := match row.live.value with
    | .inline value => value.length
    | .blob _ => 0
  row.primaryKey.length + valueBytes + estimateSecondaryKeysBytes row.live.secondaryKeys + 96

def estimateIndexRowBytes (row : ReadIndexRow) : Nat :=
  row.compositeKey.length + row.secondaryKey.length + 40

def primaryRows (merged : PrimaryMemStore) : List ReadPrimaryRow :=
  merged.entries.filterMap fun entry =>
    entry.2.live.map fun live => { primaryKey := entry.1, live, sequence := entry.2.sequence }

/-- The index rows of one primary row, which stands at `position` among the rows. -/
def indexRowsOf (indexName : IndexName) (row : ReadPrimaryRow × Nat) : List ReadIndexRow :=
  ((row.1.live.secondaryKeys.find? indexName).getD []).map fun secondaryKey =>
    { compositeKey := encodeIndexCompositeKey secondaryKey row.1.primaryKey
      secondaryKey
      primarySegmentIndex := row.2 / rowsPerSegment
      primaryRowIndex := row.2 % rowsPerSegment }

def compositeOrder (left right : ReadIndexRow) : Prop := left.compositeKey ≤ right.compositeKey

instance : DecidableRel compositeOrder := fun left right =>
  inferInstanceAs (Decidable (left.compositeKey ≤ right.compositeKey))

def indexRows (indexName : IndexName) (rows : List ReadPrimaryRow) : List ReadIndexRow :=
  (rows.zipIdx.flatMap (indexRowsOf indexName)).insertionSort compositeOrder

def readModelIndexNames (rows : List ReadPrimaryRow) : List IndexName :=
  (SortedMap.ofList (rows.flatMap fun row => row.live.secondaryKeys.keys.map fun name =>
    (name, ()))).keys

def buildReadModelLocked (store : Store) : ReadModel :=
  let rows := primaryRows (mergedPrimary store)
  let indexes := (readModelIndexNames rows).map fun name => (name, indexRows name rows)
  { visibleSequence := store.lastVisibleSequence
    approximateBytes := (rows.map estimatePrimaryRowBytes).sum +
      (indexes.map fun index => (index.2.map estimateIndexRowBytes).sum).sum
    primarySegments := segmentRows rowsPerSegment [] rows
    indexSegments := SortedMap.ofList (indexes.filterMap fun index =>
      if index.2.isEmpty then none else some (index.1, segmentRows rowsPerSegment [] index.2)) }

/-- `blobFiles` holds the blob files this state has opened, by inode. -/
structure SnapshotState where
  visibleSequence : Nat
  readModel : ReadModel
  overlay : Option WriterOverlay
  mutableMem : MemTable
  immutableMems : List MemTable
  primaryTablesNewestFirst : List PrimaryMemStore
  blobFiles : SortedMap Nat Nat
  deriving DecidableEq

structure DbEntry where
  primaryKey : Bytes
  secondaryKey : Bytes
  value : Bytes
  secondaryKeys : SecondaryKeys
  sequence : Nat
  deriving DecidableEq

namespace SnapshotState

/-- `blobFile_`: the cached handle, or the file opened by name. -/
def blobFile (snapshot : SnapshotState) (blobs : BlobDir) (fileId : Nat) : Option Nat :=
  match snapshot.blobFiles.find? fileId with
  | some inode => some inode
  | none => blobs.names.find? fileId

def openBlobFile (fileId : Nat) (blobs : BlobDir) (snapshot : SnapshotState) : SnapshotState :=
  match snapshot.blobFile blobs fileId with
  | some inode => { snapshot with blobFiles := snapshot.blobFiles.insert fileId inode }
  | none => snapshot

def resolveValue (snapshot : SnapshotState) (blobs : BlobDir) : StoredValue → Option Bytes
  | .inline value => some value
  | .blob ref =>
    match snapshot.blobFile blobs ref.fileId with
    | some inode => readBlob blobs inode ref
    | none => none

def resolveLive (snapshot : SnapshotState) (blobs : BlobDir) (sequence : Nat) (live : LiveRecord) :
    Option Store.Found :=
  (snapshot.resolveValue blobs live.value).map fun value =>
    { value, secondaryKeys := live.secondaryKeys, sequence }

def resolveRecord (snapshot : SnapshotState) (blobs : BlobDir) (record : PrimaryRecord) :
    Option Store.Found :=
  record.live.bind (snapshot.resolveLive blobs record.sequence)

/-- `loadPrimaryFromTable_`: absent, a tombstone and an unreadable value all answer
false, and the caller goes on to the next table. -/
def loadPrimaryFromTable (snapshot : SnapshotState) (blobs : BlobDir) (key : Bytes)
    (table : PrimaryMemStore) : Option Store.Found :=
  match table.find? key with
  | some record => snapshot.resolveRecord blobs record
  | none => none

/-- `lookupPrimary`, which starts without a table hint. -/
def lookupPrimary (snapshot : SnapshotState) (blobs : BlobDir) (key : Bytes) :
    Option Store.Found :=
  match snapshot.overlay.bind fun overlay => overlay.primary.find? key with
  | some record => snapshot.resolveRecord blobs record
  | none =>
    let mems := (snapshot.mutableMem :: snapshot.immutableMems.reverse).map MemTable.primary
    match firstHit mems key with
    | some record => snapshot.resolveRecord blobs record
    | none => snapshot.primaryTablesNewestFirst.findSome? (snapshot.loadPrimaryFromTable blobs key)

end SnapshotState

def inPrimaryRange (endKey key : Bytes) : Bool := endKey.isEmpty || key < endKey

def materializeReadEntry (snapshot : SnapshotState) (blobs : BlobDir) (secondaryKey : Bytes)
    (row : ReadPrimaryRow) : Option DbEntry :=
  (snapshot.resolveValue blobs row.live.value).map fun value =>
    { primaryKey := row.primaryKey, secondaryKey, value
      secondaryKeys := row.live.secondaryKeys, sequence := row.sequence }

def primaryStart (readModel : ReadModel) (startKey : Bytes) : List (List ReadPrimaryRow) :=
  if startKey.isEmpty then readModel.primarySegments
  else locateStart (fun row => row.primaryKey < startKey) readModel.primarySegments

/-- `ReadModelPrimaryIteratorState_::next` -/
def readModelPrimaryNext (snapshot : SnapshotState) (blobs : BlobDir) (endKey : Bytes)
    (cursor : List (List ReadPrimaryRow)) : Option (DbEntry × List (List ReadPrimaryRow)) :=
  match nextRow cursor with
  | none => none
  | some (row, rest) =>
    if inPrimaryRange endKey row.primaryKey then
      (materializeReadEntry snapshot blobs [] row).map fun entry => (entry, rest)
    else none

def indexStart (readModel : ReadModel) (indexName : IndexName) (startSecondaryKey : Bytes) :
    List (List ReadIndexRow) :=
  let segments := (readModel.indexSegments.find? indexName).getD []
  if startSecondaryKey.isEmpty then segments
  else
    let startCompositeKey := encodeIndexCompositeKey startSecondaryKey []
    locateStart (fun row => row.compositeKey < startCompositeKey) segments

/-- `ReadModelIndexIteratorState_::next` -/
def readModelIndexNext (snapshot : SnapshotState) (blobs : BlobDir) (endSecondaryKey : Bytes)
    (cursor : List (List ReadIndexRow)) : Option (DbEntry × List (List ReadIndexRow)) :=
  match nextRow cursor with
  | none => none
  | some (row, rest) =>
    if inPrimaryRange endSecondaryKey row.secondaryKey then
      match snapshot.readModel.primarySegments[row.primarySegmentIndex]? with
      | none => none
      | some segment =>
        match segment[row.primaryRowIndex]? with
        | none => none
        | some primary =>
          (materializeReadEntry snapshot blobs row.secondaryKey primary).map fun entry =>
            (entry, rest)
    else none

def overlayPrimaryEntry (snapshot : SnapshotState) (blobs : BlobDir)
    (entry : Bytes × PrimaryRecord) : Override DbEntry :=
  match entry.2.live with
  | none => .skip
  | some live =>
    match snapshot.resolveValue blobs live.value with
    | none => .stop
    | some value =>
      .yield { primaryKey := entry.1, secondaryKey := [], value
               secondaryKeys := live.secondaryKeys, sequence := entry.2.sequence }

/-- `OverlayMergingPrimaryIteratorState_::next` -/
def overlayPrimaryNext (snapshot : SnapshotState) (blobs : BlobDir) (endKey : Bytes) :
    MergeState Bytes PrimaryRecord DbEntry (List (List ReadPrimaryRow)) →
      Option (DbEntry × MergeState Bytes PrimaryRecord DbEntry (List (List ReadPrimaryRow))) :=
  mergeNext (readModelPrimaryNext snapshot blobs endKey) DbEntry.primaryKey
    (fun entry => inPrimaryRange endKey entry.1) (overlayPrimaryEntry snapshot blobs)

def overlayIndexEntry (snapshot : SnapshotState) (blobs : BlobDir)
    (entry : Bytes × OverlayIndexEntry) : Override DbEntry :=
  if entry.2.deleted then .skip
  else
    match snapshot.lookupPrimary blobs entry.2.primaryKey with
    | none => .skip
    | some found =>
      .yield { primaryKey := entry.2.primaryKey, secondaryKey := entry.2.secondaryKey
               value := found.value, secondaryKeys := found.secondaryKeys
               sequence := found.sequence }

/-- `OverlayMergingIndexIteratorState_::next` -/
def overlayIndexNext (snapshot : SnapshotState) (blobs : BlobDir) (endSecondaryKey : Bytes) :
    MergeState Bytes OverlayIndexEntry DbEntry (List (List ReadIndexRow)) →
      Option (DbEntry × MergeState Bytes OverlayIndexEntry DbEntry (List (List ReadIndexRow))) :=
  mergeNext (readModelIndexNext snapshot blobs endSecondaryKey)
    (fun entry => encodeIndexCompositeKey entry.secondaryKey entry.primaryKey)
    (fun entry => inPrimaryRange endSecondaryKey entry.2.secondaryKey)
    (overlayIndexEntry snapshot blobs)

/-- An iterator a caller holds, of one of the four kinds. -/
inductive IteratorState where
  | primary (endKey : Bytes) (cursor : List (List ReadPrimaryRow))
  | index (endSecondaryKey : Bytes) (cursor : List (List ReadIndexRow))
  | overlayPrimary (endKey : Bytes)
      (state : MergeState Bytes PrimaryRecord DbEntry (List (List ReadPrimaryRow)))
  | overlayIndex (endSecondaryKey : Bytes)
      (state : MergeState Bytes OverlayIndexEntry DbEntry (List (List ReadIndexRow)))

def createPrimaryIteratorState (snapshot : SnapshotState) (startKey endKey : Bytes) :
    IteratorState :=
  let cursor := primaryStart snapshot.readModel startKey
  match snapshot.overlay with
  | some overlay =>
    if overlay.primary.isEmpty then .primary endKey cursor
    else .overlayPrimary endKey
      { overrides := overlay.primary.fromKey startKey, loaded := none, cursor }
  | none => .primary endKey cursor

def createIndexIteratorState (snapshot : SnapshotState) (indexName : IndexName)
    (startSecondaryKey endSecondaryKey : Bytes) : IteratorState :=
  let cursor := indexStart snapshot.readModel indexName startSecondaryKey
  match snapshot.overlay with
  | some overlay =>
    let bucket := overlay.bucket indexName
    if bucket.isEmpty then .index endSecondaryKey cursor
    else
      let overrides := if startSecondaryKey.isEmpty then bucket.entries
        else bucket.fromKey (encodeIndexCompositeKey startSecondaryKey [])
      .overlayIndex endSecondaryKey { overrides, loaded := none, cursor }
  | none => .index endSecondaryKey cursor

def IteratorState.next (snapshot : SnapshotState) (blobs : BlobDir) :
    IteratorState → Option (DbEntry × IteratorState)
  | .primary endKey cursor =>
    (readModelPrimaryNext snapshot blobs endKey cursor).map fun result =>
      (result.1, .primary endKey result.2)
  | .index endKey cursor =>
    (readModelIndexNext snapshot blobs endKey cursor).map fun result =>
      (result.1, .index endKey result.2)
  | .overlayPrimary endKey state =>
    (overlayPrimaryNext snapshot blobs endKey state).map fun result =>
      (result.1, .overlayPrimary endKey result.2)
  | .overlayIndex endKey state =>
    (overlayIndexNext snapshot blobs endKey state).map fun result =>
      (result.1, .overlayIndex endKey result.2)

end SwStack.EmbeddedDb
