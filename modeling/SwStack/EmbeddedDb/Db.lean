import SwStack.EmbeddedDb.ReadModel
import SwStack.Lib.Transition

/-! The state of a writing process: its tiers, its read cache, the write pipeline and
the background jobs. Stages name the places where a thread holds no lock. -/
namespace SwStack.EmbeddedDb

open SwStack.Lib

/-- A `WriteRequest_` with its sequence; the log frame is determined by `frame`. -/
structure Request where
  frame : Frame
  waitForDurable : Bool
  deriving DecidableEq

/-- Where `writeServiceLoop_` stands. -/
inductive ServiceStage where
  | idle
  | drained (group : List Request) (target : Nat)
  | opened (group : List Request) (target : Nat)
  | appended (group : List Request) (target : Nat)
  | committed (group : List Request) (target : Nat)
  | failed (group : List Request)
  | stopped
  deriving DecidableEq

/-- The requests the service took from the queue and has not answered. -/
def ServiceStage.group : ServiceStage → List Request
  | drained group _ | opened group _ | appended group _ | committed group _ | failed group => group
  | idle | stopped => []

/-- `flushBackground_`: `running` is the top of its loop, `installed` the place after
`flushMemTable_` has succeeded and before the memtable is removed. -/
inductive FlushStage where
  | idle
  | running
  | writing (task : FlushTask)
  | installed (mem : MemTable)
  deriving DecidableEq

inductive CompactionStage where
  | idle
  | scheduled (plan : CompactionPlan)
  | writing (job : CompactionJob)
  deriving DecidableEq

inductive BlobGcStage where
  | idle
  | scheduled
  | scanned (scan : BlobGcScan)
  | listed (scan : BlobGcScan) (blobFiles : List Nat)
  | written (scan : BlobGcScan) (blobFiles : List Nat) (table : Option Table) (newBlobFileId : Nat)
  deriving DecidableEq

/-- Where `close` stands; `flushing` holds the merged memtable of `flushAllSync_`. -/
inductive CloseStage where
  | no
  | begun
  | stopped
  | flushing (task : FlushTask)
  | flushed
  deriving DecidableEq

/-- `writerSnapshotState_` is an index into the snapshot states of the process. -/
structure ReadCache where
  writerSnapshot : Option Nat
  writerSnapshotGeneration : Nat
  overlay : WriterOverlay
  deriving DecidableEq

def ReadCache.empty : ReadCache :=
  { writerSnapshot := none, writerSnapshotGeneration := 0, overlay := WriterOverlay.empty 0 }

/-- `snapshots` are the snapshot states created so far; callers keep them by index.
`blobRemovals` are the files blob collection has still to delete. The last three fields
are proof-only: the requests whose `write` call has returned Ok, the log frames replay
applied or the service appended with the file they are in, and the memtables
`flushAllSync_` took out of the tiers and has not saved. -/
structure Db where
  options : Options
  store : Store
  cache : ReadCache
  snapshots : List SnapshotState
  nextSequence : Nat
  lastDurableSequence : Nat
  tickets : List Request
  pendingWrites : List Request
  service : ServiceStage
  activeWalFileId : Nat
  backgroundWriteError : Bool
  flush : FlushStage
  compaction : CompactionStage
  blobGc : BlobGcStage
  blobRemovals : List Nat
  close : CloseStage
  acknowledged : List Request
  walFrames : List (Nat × Frame)
  held : List MemTable
  deriving DecidableEq

namespace Db

def closing (db : Db) : Bool := db.close ≠ .no

def memtablesEmpty (store : Store) : Bool := store.immutables.isEmpty && store.mutable.isEmpty

def scheduleFlushLocked (db : Db) : Db :=
  if db.flush ≠ .idle ∨ db.closing ∨ db.store.immutables = [] then db
  else { db with flush := .running }

def compactL0Locked (db : Db) : Db :=
  if db.compaction ≠ .idle ∨ db.closing then db
  else
    match planCompaction db.store.manifest.tables with
    | some plan => { db with compaction := .scheduled plan }
    | none => db

def scheduleBlobGcLocked (db : Db) : Db :=
  if db.blobGc ≠ .idle ∨ db.closing ∨ db.compaction ≠ .idle ∨ ¬ memtablesEmpty db.store then db
  else { db with blobGc := .scheduled }

def invalidateWriterReadCacheLocked (db : Db) : Db := { db with cache := ReadCache.empty }

/-- `persistManifestLocked_` with the caller's rollback: `manifest` is the changed
manifest; after a failure the process goes back to the one it had. -/
def saveManifest (outcome : PersistOutcome) (manifest : Manifest) (disk : Disk) (db : Db) :
    Disk × Db :=
  let installed := rebuildTableCachesLocked { db.store with manifest }
  let store :=
    if outcome = .ok then
      { installed with manifest := { manifest with manifestId := manifest.manifestId + 1 } }
    else rebuildTableCachesLocked { installed with manifest := db.store.manifest }
  (disk.persistManifestLocked outcome manifest, { db with store })

def cleanupCoveredWalFilesLocked (disk : Disk) (db : Db) : Disk × Db :=
  (disk.removeCoveredWals (replayFrom db.store) db.activeWalFileId,
   { db with store := { db.store with
      manifest := { db.store.manifest with replayFromWalId := replayFrom db.store } } })

/-- The first section hands out the sequence. A batch whose estimate does not fit 32
bits would overrun its frame buffer and is left out. -/
def assignSequence (batch : WriteBatch) (db : Db) : Option Db :=
  if db.closing ∨ db.backgroundWriteError ∨ batch = [] ∨ 2 ^ 32 ≤ estimatedWalBytes batch then none
  else
    some { db with
      nextSequence := db.nextSequence + 1
      tickets := db.tickets ++
        [{ frame := { sequence := db.nextSequence, batch }
           waitForDurable := !db.options.lazyWrite }] }

def overlayLimit (db : Db) (snapshot : Nat) : Nat :=
  let readModelBytes := ((db.snapshots[snapshot]?).map fun state =>
    state.readModel.approximateBytes).getD 0
  max (2 * 1024 * 1024) (readModelBytes / 8)

def overlayMaybeCollapse (db : Db) : Db :=
  match db.cache.writerSnapshot with
  | none => db
  | some snapshot =>
    if 65536 < db.cache.overlay.entryCount ∨
        db.overlayLimit snapshot < db.cache.overlay.approximateBytes then
      db.invalidateWriterReadCacheLocked
    else db

/-- `applyBatchLockedMutable` on the store, and on the overlay while it is active. -/
def applyFrame (frame : Frame) (db : Db) : Db :=
  let (store, overlay) := applyBatchLockedMutable frame (db.store, db.cache.overlay)
  { db with
    store
    cache := { db.cache with
      overlay := if db.cache.writerSnapshot.isSome then overlay else db.cache.overlay } }

/-- The second section applies and queues the request, and may rotate. A lazy write
returns Ok from here. -/
def applyRequest (index : Nat) (db : Db) : Option Db := do
  let request ← db.tickets[index]?
  let db := { db with tickets := db.tickets.eraseIdx index }
  if db.closing ∨ db.backgroundWriteError then
    -- the call returns an error; its sequence stays unused
    some db
  else
    let db := overlayMaybeCollapse (applyFrame request.frame db)
    let db := { db with
      pendingWrites := db.pendingWrites ++ [request]
      acknowledged := if request.waitForDurable then db.acknowledged
        else db.acknowledged ++ [request] }
    if db.options.memTableBytes ≤ db.store.mutable.approximateBytes then
      some (scheduleFlushLocked { db with store := rotateMutableToImmutableLocked db.store })
    else some db

def groupTarget (group : List Request) : Nat :=
  group.foldl (fun target request => max target request.frame.sequence) 0

def drainWriteRequests (db : Db) : Option Db :=
  match db.service, db.pendingWrites with
  | .idle, request :: pending =>
    some { db with
      service := .drained (request :: pending) (groupTarget (request :: pending))
      pendingWrites := [] }
  | _, _ => none

/-- The first section of `commitWriteRequests_`: the log file is switched here. -/
def openActiveWal (ok : Bool) (disk : Disk) (db : Db) : Option (Disk × Db) :=
  match db.service with
  | .drained group target =>
    if db.backgroundWriteError then some (disk, { db with service := .failed group })
    else if db.activeWalFileId = db.store.manifest.activeWalId then
      some (disk, { db with service := .opened group target })
    else if ok then
      some (disk.openWal db.store.manifest.activeWalId,
        { db with
          activeWalFileId := db.store.manifest.activeWalId
          service := .opened group target })
    else some (disk, { db with service := .failed group })
  | _ => none

/-- `failAfter` is the number of whole frames written before an append error. -/
def appendWal (failAfter : Option Nat) (disk : Disk) (db : Db) : Option (Disk × Db) :=
  match db.service with
  | .opened group target =>
    let frames := (group.take (failAfter.getD group.length)).map Request.frame
    some (disk.appendWal db.activeWalFileId frames,
      { db with
        walFrames := db.walFrames ++ frames.map fun frame => (db.activeWalFileId, frame)
        service := if failAfter.isNone then .appended group target else .failed group })
  | _ => none

/-- The sync and the last section of `commitWriteRequests_`. -/
def syncWal (ok : Bool) (disk : Disk) (db : Db) : Option (Disk × Db) :=
  match db.service with
  | .appended group target =>
    if ok then
      some (disk.syncWal db.activeWalFileId,
        { db with
          lastDurableSequence := max db.lastDurableSequence target
          service := .committed group target })
    else some (disk, { db with service := .failed group })
  | _ => none

/-- Durable writers return from here. After an error the loop ends. -/
def finalizeWriteRequests (db : Db) : Option Db :=
  match db.service with
  | .committed group target =>
    some { db with
      lastDurableSequence := max db.lastDurableSequence target
      acknowledged := db.acknowledged ++ group.filter Request.waitForDurable
      service := .idle }
  | .failed _ => some { db with backgroundWriteError := true, service := .stopped }
  | _ => none

inductive SyncStart where
  | error
  | ok
  | wait (target : Nat)
  deriving DecidableEq

def syncStart (db : Db) : SyncStart :=
  if db.closing ∨ db.backgroundWriteError then .error
  else if db.store.lastVisibleSequence ≤ db.lastDurableSequence ∧ db.pendingWrites = [] then .ok
  else .wait db.store.lastVisibleSequence

/-- The wait for `target` ends with Ok. -/
def syncReturnsOk (target : Nat) (db : Db) : Bool :=
  !db.backgroundWriteError && target ≤ db.lastDurableSequence

def flushTake (db : Db) : Option Db :=
  match db.flush with
  | .running =>
    match db.store.immutables with
    | mem :: _ =>
      if db.closing then some { db with flush := .idle }
      else some { db with flush := .writing (FlushTask.start mem) }
    | [] => some { db with flush := .idle }
  | _ => none

def withManifestBlobs (manifest : Manifest) (blobs : BlobDir) (disk : Disk) (db : Db) : Disk × Db :=
  ({ disk with blobs }, { db with store := { db.store with manifest } })

def flushWrite (ok : Bool) (disk : Disk) (db : Db) : Option (Disk × Db) :=
  match db.flush with
  | .writing task =>
    match task.writeNext db.options.inlineBlobThresholdBytes db.store.manifest disk.blobs with
    | none => none
    | some (task, manifest, blobs) =>
      let (disk, db) := db.withManifestBlobs manifest blobs disk
      some (disk, { db with flush := if ok then .writing task else .idle })
  | _ => none

/-- What follows a successful install, unless the database is closing. -/
def afterInstall (disk : Disk) (db : Db) : Disk × Db :=
  if db.closing then (disk, db)
  else
    let (disk, db) := db.cleanupCoveredWalFilesLocked disk
    (disk, db.compactL0Locked.scheduleBlobGcLocked)

def flushCommit (outcome : PersistOutcome) (disk : Disk) (db : Db) : Option (Disk × Db) :=
  match db.flush with
  | .writing task =>
    if task.remaining ≠ [] then none
    else
      let (disk, db) := db.saveManifest outcome (task.install db.store) disk
      if outcome = .ok then some (afterInstall disk { db with flush := .installed task.mem })
      else some (disk, { db with flush := .idle })
  | _ => none

def flushPop (db : Db) : Option Db :=
  match db.flush with
  | .installed mem =>
    match db.store.immutables with
    | first :: rest =>
      if first.walId = mem.walId ∧ first.maxSeq = mem.maxSeq then
        some { db with flush := .running, store := { db.store with immutables := rest } }
      else some { db with flush := .running }
    | [] => some { db with flush := .running }
  | _ => none

def compactStart (db : Db) : Option Db :=
  match db.compaction with
  | .scheduled plan =>
    if db.closing then some { db with compaction := .idle }
    else some { db with compaction := .writing (plan.start db.store.manifest.tables) }
  | _ => none

def compactWrite (ok : Bool) (db : Db) : Option Db :=
  match db.compaction with
  | .writing job =>
    match job.writeNext db.store.manifest with
    | none => none
    | some (job, manifest) =>
      some { db with
        store := { db.store with manifest }
        compaction := if ok then .writing job else .idle }
  | _ => none

def compactCommit (outcome : PersistOutcome) (disk : Disk) (db : Db) : Option (Disk × Db) :=
  match db.compaction with
  | .writing job =>
    if job.remaining ≠ [] then none
    else if db.closing then some (disk, { db with compaction := .idle })
    else
      let manifest := replaceTables job.toRemove job.written db.store.manifest
      let (disk, db) := db.invalidateWriterReadCacheLocked.saveManifest outcome manifest disk
      let db := { db with compaction := .idle }
      if outcome = .ok then some (disk, db.compactL0Locked.scheduleBlobGcLocked)
      else some (disk, db)
  | _ => none

def gcBlocked (db : Db) : Bool :=
  db.closing || db.compaction ≠ .idle || !memtablesEmpty db.store

def gcStart (disk : Disk) (db : Db) : Option Db :=
  match db.blobGc with
  | .scheduled =>
    if db.gcBlocked then some { db with blobGc := .idle }
    else
      match materializePrimaryLocked disk.blobs db.store with
      | none => some { db with blobGc := .idle }
      | some rows =>
        let scan : BlobGcScan :=
          { rows
            oldPrimaryTables := db.store.manifest.tables.filter isPrimary
            stableSequence := db.store.lastVisibleSequence
            stableManifestId := db.store.manifest.manifestId }
        some { db with blobGc := .scanned scan }
  | _ => none

def gcList (disk : Disk) (db : Db) : Option Db :=
  match db.blobGc with
  | .scanned scan =>
    if hasGarbage disk.blobs scan.rows then
      some { db with blobGc := .listed scan disk.blobs.names.keys }
    else some { db with blobGc := .idle }
  | _ => none

/-- A failed write leaves at most a file that nothing refers to. -/
def gcWrite (ok : Bool) (disk : Disk) (db : Db) : Option (Disk × Db) :=
  match db.blobGc with
  | .listed scan blobFiles =>
    let (table, newBlobFileId, manifest, blobs) :=
      writeGcTable db.options.inlineBlobThresholdBytes scan.rows db.store.manifest disk.blobs
    let (disk, db) := db.withManifestBlobs manifest blobs disk
    some (disk, { db with
      blobGc := if ok then .written scan blobFiles table newBlobFileId else .idle })
  | _ => none

def discardBlobFile (fileId : Nat) (disk : Disk) : Disk :=
  if fileId = 0 then disk else { disk with blobs := disk.blobs.remove fileId }

def gcCommit (outcome : PersistOutcome) (disk : Disk) (db : Db) : Option (Disk × Db) :=
  match db.blobGc with
  | .written scan blobFiles table newBlobFileId =>
    let db := { db with blobGc := .idle }
    if db.gcBlocked ∨ db.store.lastVisibleSequence ≠ scan.stableSequence ∨
        db.store.manifest.manifestId ≠ scan.stableManifestId then
      some (discardBlobFile newBlobFileId disk, db)
    else
      let manifest := replaceTables scan.oldPrimaryTables table.toList db.store.manifest
      let (disk, db) := db.invalidateWriterReadCacheLocked.saveManifest outcome manifest disk
      if outcome = .ok then
        some (disk, { db with
          blobRemovals := db.blobRemovals ++
            blobFiles.filter fun fileId => fileId ≠ 0 && fileId ≠ newBlobFileId })
      else some (discardBlobFile newBlobFileId disk, db)
  | _ => none

def gcRemove (index : Nat) (disk : Disk) (db : Db) : Option (Disk × Db) := do
  let fileId ← db.blobRemovals[index]?
  some ({ disk with blobs := disk.blobs.remove fileId },
    { db with blobRemovals := db.blobRemovals.eraseIdx index })

/-- The state a snapshot of the tiers alone holds. -/
def freshSnapshot (store : Store) : SnapshotState :=
  { visibleSequence := store.lastVisibleSequence
    readModel := buildReadModelLocked store
    overlay := none
    mutableMem := store.mutable
    immutableMems := store.immutables
    primaryTablesNewestFirst := store.manifest.primaryTablesNewestFirst
    blobFiles := ∅ }

/-- The base with the overlay over it: a new state, with no blob file open yet. -/
def overlaySnapshot (db : Db) (base : SnapshotState) : SnapshotState :=
  { base with
    visibleSequence := db.store.lastVisibleSequence
    overlay := some db.cache.overlay
    blobFiles := ∅ }

/-- The index of the state the new snapshot refers to. -/
def createSnapshot (db : Db) : Option (Nat × Db) :=
  if db.closing then none
  else
    let rebuild := (db.snapshots.length,
      { db with
        snapshots := db.snapshots ++ [freshSnapshot db.store]
        cache :=
          { writerSnapshot := some db.snapshots.length
            writerSnapshotGeneration := db.store.applyGeneration
            overlay := WriterOverlay.empty db.store.lastVisibleSequence } })
    match db.cache.writerSnapshot with
    | none => some rebuild
    | some index =>
      if db.cache.writerSnapshotGeneration = db.store.applyGeneration then some (index, db)
      else
        match db.snapshots[index]? with
        | none => some rebuild
        | some base =>
          if db.cache.overlay.baseSequence = base.visibleSequence then
            some (db.snapshots.length,
              { db with snapshots := db.snapshots ++ [db.overlaySnapshot base] })
          else some rebuild

/-- A read through a snapshot opens the blob file it needs and keeps the handle. -/
def openBlob (index fileId : Nat) (disk : Disk) (db : Db) : Option Db := do
  let snapshot ← db.snapshots[index]?
  some { db with snapshots := db.snapshots.set index (snapshot.openBlobFile fileId disk.blobs) }

def closeBegin (db : Db) : Option Db :=
  if db.closing then none else some { db with close := .begun }

/-- The service drains what is queued before it stops; requests it leaves behind after
an error are answered with an error. -/
def closeStop (db : Db) : Option Db :=
  if db.close = .begun ∧ (db.service = .stopped ∨ db.service = .idle ∧ db.pendingWrites = []) then
    some { db with close := .stopped, service := .stopped, pendingWrites := [] }
  else none

def pendingMems (store : Store) : List MemTable :=
  store.immutables ++ (if store.mutable.isEmpty then [] else [store.mutable])

/-- The first section of `flushAllSync_`. With nothing to flush, the manifest is saved. -/
def closeTake (outcome : PersistOutcome) (disk : Disk) (db : Db) : Option (Disk × Db) :=
  if db.close ≠ .stopped then none
  else
    let mems := pendingMems db.store
    let store := { db.store with
      immutables := [], mutable := MemTable.new db.store.manifest.activeWalId }
    let db := { db with store, held := mems }
    if mems = [] then
      let (disk, db) := db.saveManifest outcome db.store.manifest disk
      some (disk, { db with close := .flushed })
    else
      some (disk, { db with close := .flushing (FlushTask.start (mergeMemTablesForFlush mems)) })

def closeWrite (ok : Bool) (disk : Disk) (db : Db) : Option (Disk × Db) :=
  match db.close with
  | .flushing task =>
    match task.writeNext db.options.inlineBlobThresholdBytes db.store.manifest disk.blobs with
    | none => none
    | some (task, manifest, blobs) =>
      let (disk, db) := db.withManifestBlobs manifest blobs disk
      some (disk, { db with close := if ok then .flushing task else .flushed })
  | _ => none

def closeCommit (outcome : PersistOutcome) (disk : Disk) (db : Db) : Option (Disk × Db) :=
  match db.close with
  | .flushing task =>
    if task.remaining ≠ [] then none
    else
      let (disk, db) := db.saveManifest outcome (task.install db.store) disk
      some (disk, { db with
        close := .flushed
        held := if outcome = .ok then [] else db.held })
  | _ => none

/-- The background workers have to be idle before the process lets go. -/
def closeFinish (db : Db) : Option Unit :=
  if db.close = .flushed ∧ db.flush = .idle ∧ db.compaction = .idle ∧ db.blobGc = .idle ∧
      db.blobRemovals = [] then some ()
  else none

end Db

/-- The manifest to start from: the persisted one, or a first one that is saved. -/
def loadManifest (disk : Disk) : Disk × Manifest :=
  match disk.persisted with
  | some manifest => (disk, manifest)
  | none =>
    (disk.persistManifestLocked .ok Manifest.initial,
      { Manifest.initial with manifestId := Manifest.initial.manifestId + 1 })

def openDb (options : Options) (disk : Disk) : Disk × Db :=
  let (disk, manifest) := loadManifest disk
  let store := loadStore disk.wals manifest
  let walFrames := replayedFrames disk.wals manifest
  let store := { store with manifest := normalizeIdsLocked disk.wals store.manifest }
  let disk := disk.openWal store.manifest.activeWalId
  let db : Db :=
    { options, store, cache := ReadCache.empty, snapshots := []
      nextSequence := store.lastVisibleSequence + 1
      lastDurableSequence := store.lastVisibleSequence
      tickets := [], pendingWrites := [], service := .idle
      activeWalFileId := store.manifest.activeWalId, backgroundWriteError := false
      flush := .idle, compaction := .idle, blobGc := .idle, blobRemovals := [], close := .no
      acknowledged := [], walFrames, held := [] }
  let (disk, db) := db.cleanupCoveredWalFilesLocked disk
  (disk, db.compactL0Locked)

end SwStack.EmbeddedDb

/-! The database directory and at most one writing process over it. An action is one
locked section or one piece of unlocked work of some thread, so a run is any
interleaving of writers, the write service and the background jobs, with crashes,
closes and reopens. -/
namespace SwStack.EmbeddedDb

open SwStack.Lib

/-- `durable` is proof-only: the writes acknowledged without `lazyWrite` so far. -/
structure World where
  disk : Disk
  db : Option Db
  durable : List Frame
  deriving DecidableEq

def World.initial : World := { disk := Disk.empty, db := none, durable := [] }

inductive Action where
  | openDb (options : Options)
  | crash
  | submit (batch : WriteBatch)
  | apply (index : Nat)
  | drain
  | openWal (ok : Bool)
  | appendWal (failAfter : Option Nat)
  | syncWal (ok : Bool)
  | finalize
  | flushTake
  | flushWrite (ok : Bool)
  | flushCommit (outcome : PersistOutcome)
  | flushPop
  | compactStart
  | compactWrite (ok : Bool)
  | compactCommit (outcome : PersistOutcome)
  | gcStart
  | gcList
  | gcWrite (ok : Bool)
  | gcCommit (outcome : PersistOutcome)
  | gcRemove (index : Nat)
  | createSnapshot
  | openBlob (snapshot fileId : Nat)
  | closeBegin
  | closeStop
  | closeTake (outcome : PersistOutcome)
  | closeWrite (ok : Bool)
  | closeCommit (outcome : PersistOutcome)
  | closeFinish
  deriving DecidableEq

/-- The durable requests a finalize step answers. -/
def answeredFrames (db : Db) : List Frame :=
  match db.service with
  | .committed group _ => (group.filter Request.waitForDurable).map Request.frame
  | _ => []

namespace World

def withDb (world : World) (db : Db) : World := { world with db := some db }

def withDisk (world : World) (result : Disk × Db) : World :=
  { world with disk := result.1, db := some result.2 }

def crash (world : World) : World := { world with disk := world.disk.crash, db := none }

/-- An action of the open process. -/
def stepDb (world : World) (db : Db) : Action → Option World
  | .openDb _ | .crash => none
  | .submit batch => (db.assignSequence batch).map world.withDb
  | .apply index => (db.applyRequest index).map world.withDb
  | .drain => db.drainWriteRequests.map world.withDb
  | .openWal ok => (db.openActiveWal ok world.disk).map world.withDisk
  | .appendWal failAfter => (db.appendWal failAfter world.disk).map world.withDisk
  | .syncWal ok => (db.syncWal ok world.disk).map world.withDisk
  | .finalize =>
    db.finalizeWriteRequests.map fun next =>
      { world.withDb next with durable := world.durable ++ answeredFrames db }
  | .flushTake => db.flushTake.map world.withDb
  | .flushWrite ok => (db.flushWrite ok world.disk).map world.withDisk
  | .flushCommit outcome => (db.flushCommit outcome world.disk).map world.withDisk
  | .flushPop => db.flushPop.map world.withDb
  | .compactStart => db.compactStart.map world.withDb
  | .compactWrite ok => (db.compactWrite ok).map world.withDb
  | .compactCommit outcome => (db.compactCommit outcome world.disk).map world.withDisk
  | .gcStart => (db.gcStart world.disk).map world.withDb
  | .gcList => (db.gcList world.disk).map world.withDb
  | .gcWrite ok => (db.gcWrite ok world.disk).map world.withDisk
  | .gcCommit outcome => (db.gcCommit outcome world.disk).map world.withDisk
  | .gcRemove index => (db.gcRemove index world.disk).map world.withDisk
  | .createSnapshot => db.createSnapshot.map fun result => world.withDb result.2
  | .openBlob snapshot fileId => (db.openBlob snapshot fileId world.disk).map world.withDb
  | .closeBegin => db.closeBegin.map world.withDb
  | .closeStop => db.closeStop.map world.withDb
  | .closeTake outcome => (db.closeTake outcome world.disk).map world.withDisk
  | .closeWrite ok => (db.closeWrite ok world.disk).map world.withDisk
  | .closeCommit outcome => (db.closeCommit outcome world.disk).map world.withDisk
  | .closeFinish => db.closeFinish.map fun _ => { world with db := none }

def step (world : World) (action : Action) : Option World :=
  match world.db, action with
  | none, .openDb options => some (world.withDisk (openDb options world.disk))
  | none, _ => none
  | some _, .crash => some world.crash
  | some db, action => world.stepDb db action

def run (actions : List Action) : Option World := actions.foldlM step initial

theorem exists_of_run {holds : World → Db → Prop} [∀ world db, Decidable (holds world db)]
    (checked : ((run actions).any fun world =>
      world.db.any fun db => decide (holds world db)) = true) :
    ∃ world db, run actions = some world ∧ world.db = some db ∧ holds world db := by
  simp only [Option.any_eq_true, decide_eq_true_eq] at checked
  obtain ⟨world, ran, db, opened, held⟩ := checked
  exact ⟨world, db, ran, opened, held⟩

end World
end SwStack.EmbeddedDb
