import SwStack.EmbeddedDb.ReadModelScans

/-! A read-only database and the reload of its directory. The reload drops what the process holds
before it reads the manifest, the tables and the logs, and each of these can fail. -/
namespace SwStack.EmbeddedDb

open SwStack.Lib

/-- `SwDbStatus`, with its messages. -/
inductive Status where
  | success
  | notOpen (message : String)
  | ioError (message : String)
  | corruption (message : String)
  deriving DecidableEq

/-- What the file named in `CURRENT` turns out to be. -/
inductive ManifestFile where
  | unreadable (error : String)
  | notObject
  | object (manifest : Manifest)
  deriving DecidableEq

/-- The directory as a reader finds it. `current` is none when `CURRENT` cannot be read, and
`walError` names the log files that cannot. -/
structure Directory where
  current : Option ManifestFile
  openTable : Table → Status
  wals : SortedMap Nat WalFile
  walError : Nat → Option String

/-- What a process that only reads holds of the database. `tableHandles` are the tables that are
open, and `primaryTableHandlesNewestFirst` the cached search order, empty until all are. -/
structure ReadOnlyDb where
  store : Store
  tableHandles : List Table
  primaryTableHandlesNewestFirst : List PrimaryMemStore
  readOnlySnapshotState : Option SnapshotState
  deriving DecidableEq

/-- `Manifest_()`, before any file is read. -/
def Manifest.unread : Manifest :=
  { manifestId := 0, maxSequence := 0, replayFromWalId := 1, activeWalId := 1, nextWalId := 2,
    nextTableId := 1, tables := [], frames := [] }

namespace ReadOnlyDb

/-- The tiers a read model is built from: of the tables in the manifest, those with a handle. -/
def openStore (db : ReadOnlyDb) : Store :=
  { db.store with manifest := { db.store.manifest with tables := db.tableHandles } }

/-- The snapshot state that the current tiers give. -/
def snapshotOf (db : ReadOnlyDb) : SnapshotState :=
  { visibleSequence := db.store.lastVisibleSequence
    readModel := buildReadModelLocked db.openStore
    overlay := none
    mutableMem := db.store.mutable
    immutableMems := db.store.immutables
    primaryTablesNewestFirst := db.primaryTableHandlesNewestFirst
    blobFiles := ∅ }

def createSnapshot (db : ReadOnlyDb) : SnapshotState :=
  db.readOnlySnapshotState.getD db.snapshotOf

/-- The record `lookupPrimaryLocked_` leaves in `outRecord`. -/
def outRecord (db : ReadOnlyDb) (key : Bytes) : Option PrimaryRecord :=
  match firstHit (db.store.mems.map MemTable.primary) key with
  | some record => some record
  | none =>
    if db.store.aboveMaxKnown key then none else firstHit db.primaryTableHandlesNewestFirst key

/-- What a caller of `get` receives. -/
def rowOf (found : Store.Found) : Bytes × SecondaryKeys := (found.value, found.secondaryKeys)

/-- `none` is the status "primary key not found". -/
def get (blobs : BlobDir) (db : ReadOnlyDb) (key : Bytes) : Option (Bytes × SecondaryKeys) :=
  match db.readOnlySnapshotState with
  | some snapshot => (snapshot.lookupPrimary blobs key).map rowOf
  | none => ((db.outRecord key).bind (resolveRecord blobs)).map rowOf

/-- One stage after another, as long as each succeeds. -/
def andThen (stage : ReadOnlyDb → Status × ReadOnlyDb) (reached : Status × ReadOnlyDb) :
    Status × ReadOnlyDb :=
  if reached.1 = .success then stage reached.2 else reached

/-- The fields `loadFromDisk` resets first. `maxKnownPrimaryKey_` is not among them. -/
def cleared (db : ReadOnlyDb) : ReadOnlyDb :=
  { store := { db.store with
      manifest := Manifest.unread
      mutable := MemTable.new 0
      immutables := []
      lastVisibleSequence := 0 }
    tableHandles := []
    primaryTableHandlesNewestFirst := []
    readOnlySnapshotState := none }

def loadManifestFile (file : ManifestFile) (db : ReadOnlyDb) : Status × ReadOnlyDb :=
  match file with
  | .unreadable error => (.ioError error, db)
  | .notObject => (.corruption "manifest is not a JSON object", db)
  | .object manifest => (.success, { db with store := { db.store with manifest } })

/-- The loop of `openTablesLocked`: how it ends, and the handles it leaves. -/
def openTables (openTable : Table → Status) : List Table → Status × List Table
  | [] => (.success, [])
  | table :: rest =>
    if openTable table = .success then
      ((openTables openTable rest).1, table :: (openTables openTable rest).2)
    else (openTable table, [])

def rebuildTableCaches (db : ReadOnlyDb) : ReadOnlyDb :=
  { db with
    store := rebuildTableCachesLocked db.store
    primaryTableHandlesNewestFirst := db.store.manifest.primaryTablesNewestFirst }

def openTablesLocked (dir : Directory) (db : ReadOnlyDb) : Status × ReadOnlyDb :=
  let opened := openTables dir.openTable db.store.manifest.tables
  let db := { db with tableHandles := opened.2 }
  if opened.1 = .success then (.success, db.rebuildTableCaches) else (opened.1, db)

/-- The loop of `replayWalLocked`: an unreadable file ends it. -/
def replayWals (walError : Nat → Option String) :
    List (Nat × WalFile) → Store → Status × Store
  | [], store => (.success, store)
  | entry :: rest, store =>
    match walError entry.1 with
    | some error => (.ioError error, store)
    | none => replayWals walError rest (replayWalFileLocked store entry)

def replayWalLocked (dir : Directory) (db : ReadOnlyDb) : Status × ReadOnlyDb :=
  let store := { db.store with
    mutable := MemTable.new db.store.manifest.activeWalId
    lastVisibleSequence := db.store.manifest.maxSequence }
  let replayed := replayWals dir.walError (replayedWals dir.wals store.manifest) store
  (replayed.1, { db with store := replayed.2 })

def rebuildReadOnlySnapshotLocked (db : ReadOnlyDb) : Status × ReadOnlyDb :=
  (.success, { db with readOnlySnapshotState := some db.snapshotOf })

def loadFromDisk (dir : Directory) (db : ReadOnlyDb) : Status × ReadOnlyDb :=
  match dir.current with
  | none => (.notOpen "CURRENT is missing", db.cleared)
  | some file =>
    andThen rebuildReadOnlySnapshotLocked <| andThen (replayWalLocked dir) <|
      andThen (openTablesLocked dir) <| loadManifestFile file db.cleared

/-- The database is open, and stays open whatever the load answers. -/
def refresh (dir : Directory) (db : ReadOnlyDb) : Status × ReadOnlyDb := db.loadFromDisk dir

/-- What the notifications ask for: `hint` is the flag as it is taken, and `published` the
latest sequence and manifest id, when they can be read. -/
structure Notice where
  hint : Bool
  published : Option (Nat × Nat)
  deriving DecidableEq

def Notice.asksRefresh (notice : Notice) (db : ReadOnlyDb) : Bool :=
  notice.hint || notice.published.any fun published =>
    db.store.lastVisibleSequence < published.1 || db.store.manifest.manifestId < published.2

/-- Every read starts here. The answer is the flag that is left: set again after a failure. -/
def maybeRefreshFromNotifications (dir : Directory) (notice : Notice) (db : ReadOnlyDb) :
    Bool × ReadOnlyDb :=
  if notice.asksRefresh db then
    let refreshed := db.refresh dir
    (refreshed.1 ≠ .success, refreshed.2)
  else (false, db)

/-- The database after the checks that some reads make on the way. -/
def afterNotices (dir : Directory) (notices : List Notice) (db : ReadOnlyDb) : ReadOnlyDb :=
  notices.foldl (fun db notice => (db.maybeRefreshFromNotifications dir notice).2) db

end ReadOnlyDb

/-- The answers of all reads. A scan is given by the entries that its iterator yields in all. -/
structure Shown where
  get : Bytes → Option (Bytes × SecondaryKeys)
  visibleSequence : Nat
  snapshotGet : Bytes → Option (Bytes × SecondaryKeys)
  scanPrimary : Bytes → Bytes → List DbEntry → Prop
  scanIndex : IndexName → Bytes → Bytes → List DbEntry → Prop

def ReadOnlyDb.shown (blobs : BlobDir) (db : ReadOnlyDb) : Shown :=
  { get := db.get blobs
    visibleSequence := db.createSnapshot.visibleSequence
    snapshotGet := fun key => (db.createSnapshot.lookupPrimary blobs key).map ReadOnlyDb.rowOf
    scanPrimary := fun startKey endKey =>
      Drains (IteratorState.next db.createSnapshot blobs)
        (createPrimaryIteratorState db.createSnapshot startKey endKey)
    scanIndex := fun indexName startKey endKey =>
      Drains (IteratorState.next db.createSnapshot blobs)
        (createIndexIteratorState db.createSnapshot indexName startKey endKey) }

/-- What is in place when a load fails: the tiers that scans list, and the table records that
lookups search, newest first. -/
structure Pieces where
  tiers : Store
  cached : List PrimaryMemStore

namespace Pieces

/-- Nothing but the tables that the manifest lists has been loaded. -/
def ofTables (manifest : Manifest) : Pieces :=
  { tiers :=
      { manifest, mutable := MemTable.new 0, immutables := [], maxKnownPrimaryKey := []
        lastVisibleSequence := 0, applyGeneration := 0 }
    cached := [] }

/-- The first version of the key decides. -/
def lookup (blobs : BlobDir) (pieces : Pieces) (key : Bytes) : Option Store.Found :=
  (firstHit (pieces.tiers.mems.map MemTable.primary ++ pieces.cached) key).bind
    (resolveRecord blobs)

/-- In the tables, versions that give no value are passed over. -/
def snapshotLookup (blobs : BlobDir) (pieces : Pieces) (key : Bytes) : Option Store.Found :=
  match firstHit (pieces.tiers.mems.map MemTable.primary) key with
  | some record => resolveRecord blobs record
  | none => pieces.cached.findSome? fun records => (records.find? key).bind (resolveRecord blobs)

def entry (blobs : BlobDir) (secondaryKey : Bytes) (row : ReadPrimaryRow) : Option DbEntry :=
  (resolveValueLocked blobs row.live.value).map fun value =>
    { primaryKey := row.primaryKey, secondaryKey, value
      secondaryKeys := row.live.secondaryKeys, sequence := row.sequence }

def shown (blobs : BlobDir) (pieces : Pieces) : Shown :=
  { get := fun key => (pieces.lookup blobs key).map ReadOnlyDb.rowOf
    visibleSequence := pieces.tiers.lastVisibleSequence
    snapshotGet := fun key => (pieces.snapshotLookup blobs key).map ReadOnlyDb.rowOf
    scanPrimary := fun startKey endKey entries =>
      entries = emitted (entry blobs [])
        ((primaryRows (mergedPrimary pieces.tiers)).filter fun row =>
          withinBounds startKey endKey row.primaryKey)
    scanIndex := fun indexName startKey endKey entries =>
      entries = emitted (fun listed => entry blobs listed.1 listed.2)
        (scannedEntries pieces.tiers indexName startKey endKey) }

end Pieces

namespace Directory

variable (dir : Directory)

/-- The tiers that a load has when it meets the first log file it cannot read. -/
def replayed (manifest : Manifest) : Store :=
  let start : Store :=
    { manifest, mutable := MemTable.new manifest.activeWalId, immutables := []
      maxKnownPrimaryKey := [], lastVisibleSequence := manifest.maxSequence, applyGeneration := 0 }
  ((replayedWals dir.wals manifest).takeWhile fun entry => (dir.walError entry.1).isNone).foldl
    replayWalFileLocked (rebuildTableCachesLocked start)

/-- What the directory gives up to its first defect: nothing without a manifest; only the tables
before one that does not open; else all tables, and the log files before an unreadable one. -/
def pieces : Pieces :=
  match dir.current with
  | some (.object manifest) =>
    if ∀ table ∈ manifest.tables, dir.openTable table = .success then
      { tiers := dir.replayed manifest, cached := manifest.primaryTablesNewestFirst }
    else
      Pieces.ofTables { manifest with
        tables := manifest.tables.takeWhile fun table => dir.openTable table = .success }
  | _ => Pieces.ofTables Manifest.unread

end Directory

end SwStack.EmbeddedDb
