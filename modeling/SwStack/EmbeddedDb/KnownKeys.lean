import SwStack.EmbeddedDb.Db
import SwStack.EmbeddedDb.Refresh

/-! The cached greatest primary key over whole runs. It is never below a key of a tier, so a
lookup that it cuts short is one that every tier would have missed. -/
namespace SwStack.EmbeddedDb

open SwStack.Lib List

/-- One change of the tiers under the lock. -/
inductive StoreChange : Store → Store → Prop where
  | batch {store : Store} (frame : Frame) (overlay : WriterOverlay) :
      StoreChange store (applyBatchLockedMutable frame (store, overlay)).1
  | rotate {store : Store} : StoreChange store (rotateMutableToImmutableLocked store)
  | renumber {store : Store} {manifest : Manifest}
      (tables : manifest.tables = store.manifest.tables) :
      StoreChange store { store with manifest }
  | install {store : Store} (manifest : Manifest) :
      StoreChange store (rebuildTableCachesLocked { store with manifest })
  | pop {store : Store} {mem : MemTable} {rest : List MemTable}
      (held : store.immutables = mem :: rest) : StoreChange store { store with immutables := rest }
  | take {store : Store} (walId : Nat) :
      StoreChange store { store with immutables := [], mutable := MemTable.new walId }

abbrev StoreChanges : Store → Store → Prop := Relation.ReflTransGen StoreChange

namespace Db

variable {disk : Disk} {db next : Db} {result : Disk × Db}

@[simp] theorem store_scheduleFlushLocked : db.scheduleFlushLocked.store = db.store := by
  unfold scheduleFlushLocked
  split <;> rfl

@[simp] theorem store_compactL0Locked : db.compactL0Locked.store = db.store := by
  unfold compactL0Locked
  split
  · rfl
  · split <;> rfl

@[simp] theorem store_scheduleBlobGcLocked : db.scheduleBlobGcLocked.store = db.store := by
  unfold scheduleBlobGcLocked
  split <;> rfl

@[simp] theorem store_overlayMaybeCollapse : db.overlayMaybeCollapse.store = db.store := by
  unfold overlayMaybeCollapse
  split
  · rfl
  · split <;> rfl

theorem applyFrame_changes (frame : Frame) : StoreChanges db.store (db.applyFrame frame).store :=
  .single (.batch frame db.cache.overlay)

theorem cleanupCoveredWalFilesLocked_changes :
    StoreChanges db.store (db.cleanupCoveredWalFilesLocked disk).2.store := .single (.renumber rfl)

theorem tables_rebuildTableCachesLocked (store : Store) :
    (rebuildTableCachesLocked store).manifest.tables = store.manifest.tables :=
  congrArg Manifest.tables (foldl_noteKey _ store).1.manifest

variable {outcome : PersistOutcome}

theorem saveManifest_changes (saved : db.saveManifest outcome manifest disk = result) :
    StoreChanges db.store result.2.store := by
  subst saved
  unfold saveManifest
  dsimp only
  refine .tail (.single (.install manifest)) ?_
  split
  · exact .renumber (tables_rebuildTableCachesLocked { db.store with manifest }).symm
  · exact .install db.store.manifest

theorem applyRequest_changes {index : Nat} (stepped : db.applyRequest index = some next) :
    StoreChanges db.store next.store := by
  simp only [applyRequest, Option.bind_eq_bind, Option.bind_eq_some_iff] at stepped
  obtain ⟨request, -, stepped⟩ := stepped
  split at stepped
  · cases stepped
    exact .refl
  · have applied : StoreChanges db.store
        (overlayMaybeCollapse (applyFrame request.frame
          { db with tickets := db.tickets.eraseIdx index })).store := by
      rw [store_overlayMaybeCollapse]
      exact applyFrame_changes request.frame
    split at stepped
    · cases stepped
      rw [store_scheduleFlushLocked]
      exact applied.tail .rotate
    · cases stepped
      exact applied

theorem writeNext_tables {task after : FlushTask} {threshold : Nat} {manifest written : Manifest}
    {blobs remaining : BlobDir}
    (stepped : task.writeNext threshold manifest blobs = some (after, written, remaining)) :
    written.tables = manifest.tables := by
  unfold FlushTask.writeNext at stepped
  split at stepped
  · contradiction
  · cases stepped
    rfl
  · cases stepped
    rfl

variable {ok : Bool}

theorem flushWrite_changes (stepped : db.flushWrite ok disk = some result) :
    StoreChanges db.store result.2.store := by
  unfold flushWrite at stepped
  split at stepped
  · split at stepped
    · contradiction
    · rename_i written
      cases stepped
      exact .single (.renumber (writeNext_tables written))
  · contradiction

theorem afterInstall_changes (disk : Disk) (db : Db) :
    StoreChanges db.store (db.afterInstall disk).2.store := by
  unfold afterInstall
  split
  · exact .refl
  · dsimp only
    rw [store_scheduleBlobGcLocked, store_compactL0Locked]
    exact cleanupCoveredWalFilesLocked_changes

theorem flushCommit_changes (stepped : db.flushCommit outcome disk = some result) :
    StoreChanges db.store result.2.store := by
  unfold flushCommit at stepped
  split at stepped
  · split at stepped
    · contradiction
    · rename_i task stage remaining
      rcases saved : db.saveManifest outcome (task.install db.store) disk with ⟨kept, after⟩
      have changes : StoreChanges db.store after.store := saveManifest_changes saved
      rw [saved] at stepped
      dsimp only at stepped
      split at stepped
      · cases stepped
        exact changes.trans (afterInstall_changes kept { after with flush := .installed task.mem })
      · cases stepped
        exact changes
  · contradiction

theorem flushPop_changes (stepped : db.flushPop = some next) :
    StoreChanges db.store next.store := by
  unfold flushPop at stepped
  split at stepped
  · split at stepped
    · rename_i held
      split at stepped
      · cases stepped
        exact .single (.pop held)
      · cases stepped
        exact .refl
    · cases stepped
      exact .refl
  · contradiction

theorem compactWrite_changes (stepped : db.compactWrite ok = some next) :
    StoreChanges db.store next.store := by
  unfold compactWrite at stepped
  split at stepped
  · split at stepped
    · contradiction
    · rename_i job manifest written
      cases stepped
      refine .single (.renumber ?_)
      unfold CompactionJob.writeNext at written
      split at written
      · contradiction
      · cases written
        rfl
  · contradiction

theorem compactCommit_changes (stepped : db.compactCommit outcome disk = some result) :
    StoreChanges db.store result.2.store := by
  unfold compactCommit at stepped
  split at stepped
  · split at stepped
    · contradiction
    · split at stepped
      · cases stepped
        exact .refl
      · rename_i job stage remaining open_
        rcases saved : db.invalidateWriterReadCacheLocked.saveManifest outcome
          (replaceTables job.toRemove job.written db.store.manifest) disk with ⟨kept, after⟩
        have changes : StoreChanges db.store after.store := saveManifest_changes saved
        dsimp only at stepped
        rw [saved] at stepped
        dsimp only at stepped
        split at stepped
        · cases stepped
          rw [store_scheduleBlobGcLocked, store_compactL0Locked]
          exact changes
        · cases stepped
          exact changes
  · contradiction

theorem writeGcTable_tables (threshold : Nat) (rows : List (Bytes × LiveRecord × Nat × Bytes))
    (manifest : Manifest) (blobs : BlobDir) :
    (writeGcTable threshold rows manifest blobs).2.2.1.tables = manifest.tables := by
  unfold writeGcTable
  split <;> rfl

theorem gcWrite_changes (stepped : db.gcWrite ok disk = some result) :
    StoreChanges db.store result.2.store := by
  unfold gcWrite at stepped
  split at stepped
  · cases stepped
    refine .single (.renumber ?_)
    exact writeGcTable_tables _ _ _ _
  · contradiction

theorem gcCommit_changes (stepped : db.gcCommit outcome disk = some result) :
    StoreChanges db.store result.2.store := by
  unfold gcCommit at stepped
  split at stepped
  · dsimp only at stepped
    split at stepped
    · cases stepped
      exact .refl
    · rename_i scan blobFiles table newBlobFileId stage current
      rcases saved : (invalidateWriterReadCacheLocked { db with blobGc := .idle }).saveManifest
        outcome (replaceTables scan.oldPrimaryTables table.toList db.store.manifest) disk with
        ⟨kept, after⟩
      have changes : StoreChanges db.store after.store := saveManifest_changes saved
      rw [saved] at stepped
      dsimp only at stepped
      split at stepped
      · cases stepped
        exact changes
      · cases stepped
        exact changes
  · contradiction

theorem closeTake_changes (stepped : db.closeTake outcome disk = some result) :
    StoreChanges db.store result.2.store := by
  unfold closeTake at stepped
  split at stepped
  · contradiction
  · dsimp only at stepped
    have taken := @StoreChange.take db.store db.store.manifest.activeWalId
    split at stepped
    · rcases saved : saveManifest outcome db.store.manifest disk { db with
          store := { db.store with
            immutables := [], mutable := MemTable.new db.store.manifest.activeWalId }
          held := pendingMems db.store } with ⟨kept, after⟩
      rw [saved] at stepped
      cases stepped
      exact .head taken (saveManifest_changes saved)
    · cases stepped
      exact .single taken

theorem closeWrite_changes (stepped : db.closeWrite ok disk = some result) :
    StoreChanges db.store result.2.store := by
  unfold closeWrite at stepped
  split at stepped
  · split at stepped
    · contradiction
    · rename_i written
      cases stepped
      exact .single (.renumber (writeNext_tables written))
  · contradiction

theorem closeCommit_changes (stepped : db.closeCommit outcome disk = some result) :
    StoreChanges db.store result.2.store := by
  unfold closeCommit at stepped
  split at stepped
  · split at stepped
    · contradiction
    · rename_i task stage remaining
      rcases saved : db.saveManifest outcome (task.install db.store) disk with ⟨kept, after⟩
      have changes : StoreChanges db.store after.store := saveManifest_changes saved
      rw [saved] at stepped
      cases stepped
      exact changes
  · contradiction

theorem store_assignSequence {batch : WriteBatch} (stepped : db.assignSequence batch = some next) :
    next.store = db.store := by
  unfold assignSequence at stepped
  split at stepped
  · contradiction
  · cases stepped
    rfl

theorem store_drainWriteRequests (stepped : db.drainWriteRequests = some next) :
    next.store = db.store := by
  unfold drainWriteRequests at stepped
  split at stepped
  · cases stepped
    rfl
  · contradiction

theorem store_openActiveWal (stepped : db.openActiveWal ok disk = some result) :
    result.2.store = db.store := by
  unfold openActiveWal at stepped
  split at stepped
  · split at stepped
    · cases stepped
      rfl
    · split at stepped
      · cases stepped
        rfl
      · split at stepped <;> cases stepped <;> rfl
  · contradiction

theorem store_appendWal {failAfter : Option Nat}
    (stepped : db.appendWal failAfter disk = some result) : result.2.store = db.store := by
  unfold appendWal at stepped
  split at stepped
  · cases stepped
    rfl
  · contradiction

theorem store_syncWal (stepped : db.syncWal ok disk = some result) : result.2.store = db.store := by
  unfold syncWal at stepped
  split at stepped
  · split at stepped <;> cases stepped <;> rfl
  · contradiction

theorem store_finalizeWriteRequests (stepped : db.finalizeWriteRequests = some next) :
    next.store = db.store := by
  unfold finalizeWriteRequests at stepped
  split at stepped
  · cases stepped
    rfl
  · cases stepped
    rfl
  · contradiction

theorem store_flushTake (stepped : db.flushTake = some next) : next.store = db.store := by
  unfold flushTake at stepped
  split at stepped
  · split at stepped
    · split at stepped <;> cases stepped <;> rfl
    · cases stepped
      rfl
  · contradiction

theorem store_compactStart (stepped : db.compactStart = some next) : next.store = db.store := by
  unfold compactStart at stepped
  split at stepped
  · split at stepped <;> cases stepped <;> rfl
  · contradiction

theorem store_gcStart (stepped : db.gcStart disk = some next) : next.store = db.store := by
  unfold gcStart at stepped
  split at stepped
  · split at stepped
    · cases stepped
      rfl
    · split at stepped <;> cases stepped <;> rfl
  · contradiction

theorem store_gcList (stepped : db.gcList disk = some next) : next.store = db.store := by
  unfold gcList at stepped
  split at stepped
  · split at stepped <;> cases stepped <;> rfl
  · contradiction

theorem store_gcRemove {index : Nat} (stepped : db.gcRemove index disk = some result) :
    result.2.store = db.store := by
  simp only [gcRemove, Option.bind_eq_bind, Option.bind_eq_some_iff] at stepped
  obtain ⟨fileId, -, stepped⟩ := stepped
  cases stepped
  rfl

theorem store_createSnapshot {made : Nat × Db} (stepped : db.createSnapshot = some made) :
    made.2.store = db.store := by
  unfold createSnapshot at stepped
  split at stepped
  · contradiction
  · dsimp only at stepped
    repeat' split at stepped
    all_goals
      cases stepped
      rfl

theorem store_openBlob {index fileId : Nat} (stepped : db.openBlob index fileId disk = some next) :
    next.store = db.store := by
  simp only [openBlob, Option.bind_eq_bind, Option.bind_eq_some_iff] at stepped
  obtain ⟨snapshot, -, stepped⟩ := stepped
  cases stepped
  rfl

theorem store_closeBegin (stepped : db.closeBegin = some next) : next.store = db.store := by
  unfold closeBegin at stepped
  split at stepped
  · contradiction
  · cases stepped
    rfl

theorem store_closeStop (stepped : db.closeStop = some next) : next.store = db.store := by
  unfold closeStop at stepped
  split at stepped
  · cases stepped
    rfl
  · contradiction

end Db

/-- Every action of the open process is made of changes of the tiers. -/
theorem World.stepDb_changes {world next : World} {db after : Db} {action : Action}
    (stepped : world.stepDb db action = some next) (stays : next.db = some after) :
    StoreChanges db.store after.store := by
  have viaDb : ∀ {result : Option Db},
      (∀ result', result = some result' → StoreChanges db.store result'.store) →
      result.map world.withDb = some next → StoreChanges db.store after.store := by
    intro result each mapped
    obtain ⟨result', found, rfl⟩ := Option.map_eq_some_iff.mp mapped
    cases stays
    exact each _ found
  have viaDisk : ∀ {result : Option (Disk × Db)},
      (∀ result', result = some result' → StoreChanges db.store result'.2.store) →
      result.map world.withDisk = some next → StoreChanges db.store after.store := by
    intro result each mapped
    obtain ⟨result', found, rfl⟩ := Option.map_eq_some_iff.mp mapped
    cases stays
    exact each _ found
  have same : ∀ {store : Store}, store = db.store → StoreChanges db.store store := by
    rintro store rfl
    exact .refl
  cases action with
  | openDb options => contradiction
  | crash => contradiction
  | submit batch => exact viaDb (fun _ found => same (Db.store_assignSequence found)) stepped
  | apply index => exact viaDb (fun _ => Db.applyRequest_changes) stepped
  | drain => exact viaDb (fun _ found => same (Db.store_drainWriteRequests found)) stepped
  | openWal ok => exact viaDisk (fun _ found => same (Db.store_openActiveWal found)) stepped
  | appendWal failAfter => exact viaDisk (fun _ found => same (Db.store_appendWal found)) stepped
  | syncWal ok => exact viaDisk (fun _ found => same (Db.store_syncWal found)) stepped
  | finalize =>
    obtain ⟨result, found, rfl⟩ := Option.map_eq_some_iff.mp stepped
    cases stays
    exact same (Db.store_finalizeWriteRequests found)
  | flushTake => exact viaDb (fun _ found => same (Db.store_flushTake found)) stepped
  | flushWrite ok => exact viaDisk (fun _ => Db.flushWrite_changes) stepped
  | flushCommit outcome => exact viaDisk (fun _ => Db.flushCommit_changes) stepped
  | flushPop => exact viaDb (fun _ => Db.flushPop_changes) stepped
  | compactStart => exact viaDb (fun _ found => same (Db.store_compactStart found)) stepped
  | compactWrite ok => exact viaDb (fun _ => Db.compactWrite_changes) stepped
  | compactCommit outcome => exact viaDisk (fun _ => Db.compactCommit_changes) stepped
  | gcStart => exact viaDb (fun _ found => same (Db.store_gcStart found)) stepped
  | gcList => exact viaDb (fun _ found => same (Db.store_gcList found)) stepped
  | gcWrite ok => exact viaDisk (fun _ => Db.gcWrite_changes) stepped
  | gcCommit outcome => exact viaDisk (fun _ => Db.gcCommit_changes) stepped
  | gcRemove index => exact viaDisk (fun _ found => same (Db.store_gcRemove found)) stepped
  | createSnapshot =>
    obtain ⟨result, found, rfl⟩ := Option.map_eq_some_iff.mp stepped
    cases stays
    exact same (Db.store_createSnapshot found)
  | openBlob snapshot fileId => exact viaDb (fun _ found => same (Db.store_openBlob found)) stepped
  | closeBegin => exact viaDb (fun _ found => same (Db.store_closeBegin found)) stepped
  | closeStop => exact viaDb (fun _ found => same (Db.store_closeStop found)) stepped
  | closeTake outcome => exact viaDisk (fun _ => Db.closeTake_changes) stepped
  | closeWrite ok => exact viaDisk (fun _ => Db.closeWrite_changes) stepped
  | closeCommit outcome => exact viaDisk (fun _ => Db.closeCommit_changes) stepped
  | closeFinish =>
    obtain ⟨result, found, rfl⟩ := Option.map_eq_some_iff.mp stepped
    contradiction

namespace Store

/-- The first version of a key in the tiers, none of which is skipped. -/
def searchTiers (store : Store) (key : Bytes) : Option PrimaryRecord :=
  firstHit store.tierRecords key

end Store

/-- An operation once its lookup has answered. -/
def applyOperationAfter (previous : Option PrimaryRecord) (sequence : Nat)
    (state : Store × WriterOverlay) (op : Operation) : Store × WriterOverlay :=
  let (store, overlay) := state
  let key := op.primaryKey
  if (previous.map PrimaryRecord.sequence).getD 0 > sequence then (store, overlay)
  else
    let previousKeys := (previous.map PrimaryRecord.secondaryKeys).getD ∅
    let record := op.record sequence
    let mem := emitSecondaryTombstonesLocked key previousKeys sequence store.mutable
    let mem := emitSecondaryUpsertsLocked key op.secondaryKeys sequence (op.noteBlobFile mem)
    let mem := (mem.putPrimary key record).addBytes op.memBytes
    let overlay := overlayStoreIndexEntries key previousKeys sequence true overlay
    let overlay := overlayStoreIndexEntries key op.secondaryKeys sequence false overlay
    (({ store with mutable := mem }).noteKey key, overlayStorePrimary key record overlay)

def applyOperationSearching (sequence : Nat) (state : Store × WriterOverlay) (op : Operation) :
    Store × WriterOverlay :=
  applyOperationAfter (state.1.searchTiers op.primaryKey) sequence state op

def applyBatchSearching (frame : Frame) (state : Store × WriterOverlay) : Store × WriterOverlay :=
  let store := { state.1 with
    applyGeneration := state.1.applyGeneration + 1
    mutable := (state.1.mutable.noteFrame state.1.manifest.activeWalId frame).reserveBuckets
      frame.batch }
  let (store, overlay) :=
    frame.batch.foldl (applyOperationSearching frame.sequence) (store, state.2)
  ({ store with lastVisibleSequence := max store.lastVisibleSequence frame.sequence }, overlay)

def replayFrameSearching (walId : Nat) (store : Store) (frame : Frame) : Store :=
  if frame.sequence ≤ store.manifest.maxSequence then store
  else
    let mem := store.mutable
    let mem := { mem with walId := if mem.walId = 0 ∨ walId < mem.walId then walId else mem.walId }
    let store := (applyBatchSearching frame ({ store with mutable := mem }, .empty 0)).1
    { store with lastVisibleSequence := max store.lastVisibleSequence frame.sequence }

def loadStoreSearching (wals : SortedMap Nat WalFile) (manifest : Manifest) : Store :=
  (replayedWals wals manifest).foldl
    (fun store entry => entry.2.frames.foldl (replayFrameSearching entry.1) store)
    (rebuildTableCachesLocked
      { manifest, mutable := MemTable.new manifest.activeWalId, immutables := []
        maxKnownPrimaryKey := [], lastVisibleSequence := manifest.maxSequence
        applyGeneration := 0 })

namespace Store.KnowsKeys

variable {store other : Store}

theorem keep (knows : store.KnowsKeys) (same : other.maxKnownPrimaryKey = store.maxKnownPrimaryKey)
    (tiers : ∀ records ∈ other.tierRecords, records ∈ store.tierRecords ∨ records = ∅) :
    other.KnowsKeys := by
  intro records member key record found
  rw [same]
  rcases tiers records member with old | rfl
  · exact knows records old key record found
  · cases found

theorem of_mems (known : ∀ mem ∈ store.mems, ∀ key record, mem.primary.find? key = some record →
    key ≤ store.maxKnownPrimaryKey) : (rebuildTableCachesLocked store).KnowsKeys := by
  obtain ⟨same, above, each⟩ := foldl_noteKey store.manifest.primaryTablesNewestFirst store
  intro records member key record found
  rw [rebuildTableCachesLocked, same.tierRecords] at member
  rcases mem_append.mp member with ofMem | ofTable
  · obtain ⟨mem, held, rfl⟩ := mem_map.mp ofMem
    exact (known mem held key record found).trans above
  · exact (le_maxUserKey found).trans (each records ofTable)

theorem mems (knows : store.KnowsKeys) (mem : MemTable) (member : mem ∈ store.mems) (key : Bytes)
    (record : PrimaryRecord) (found : mem.primary.find? key = some record) :
    key ≤ store.maxKnownPrimaryKey :=
  knows mem.primary (mem_append_left _ (mem_map_of_mem member)) key record found

theorem applyOperation_searching (knows : store.KnowsKeys) (sequence : Nat)
    (overlay : WriterOverlay) (op : Operation) :
    applyOperation sequence (store, overlay) op =
      applyOperationSearching sequence (store, overlay) op := by
  have answered : (if store.aboveMaxKnown op.primaryKey then none
      else store.outRecord op.primaryKey) = store.searchTiers op.primaryKey :=
    (knows.outRecord op.primaryKey).1
  unfold applyOperationSearching
  rw [← answered]
  rfl

theorem foldl_applyOperation (knows : store.KnowsKeys) (sequence : Nat) (overlay : WriterOverlay)
    (ops : List Operation) :
    ops.foldl (applyOperation sequence) (store, overlay) =
        ops.foldl (applyOperationSearching sequence) (store, overlay) ∧
      (ops.foldl (applyOperation sequence) (store, overlay)).1.KnowsKeys := by
  induction ops generalizing store overlay with
  | nil => exact ⟨rfl, knows⟩
  | cons op rest ih =>
    rw [foldl_cons, foldl_cons, ← knows.applyOperation_searching]
    exact ih (applyOperation_knowsKeys knows sequence overlay op) _

theorem batch (knows : store.KnowsKeys) (frame : Frame) (overlay : WriterOverlay) :
    applyBatchLockedMutable frame (store, overlay) = applyBatchSearching frame (store, overlay) ∧
      (applyBatchLockedMutable frame (store, overlay)).1.KnowsKeys := by
  have noted : ({ store with
      applyGeneration := store.applyGeneration + 1
      mutable := (store.mutable.noteFrame store.manifest.activeWalId frame).reserveBuckets
        frame.batch } : Store).KnowsKeys := by
    refine knows.sameRecords rfl ?_
    exact congrArg (fun primary => (primary :: store.immutables.reverse.map MemTable.primary) ++
      store.manifest.primaryTablesNewestFirst) (primary_reserveBuckets _ _)
  obtain ⟨same, known⟩ := noted.foldl_applyOperation frame.sequence overlay frame.batch
  unfold applyBatchLockedMutable applyBatchSearching
  dsimp only
  rw [← same]
  exact ⟨rfl, known⟩

theorem replayFrame (knows : store.KnowsKeys) (walId : Nat) (frame : Frame) :
    EmbeddedDb.replayFrame walId store frame = replayFrameSearching walId store frame ∧
      (EmbeddedDb.replayFrame walId store frame).KnowsKeys := by
  have together := replayFrame_lockstep ⟨⟨rfl, rfl, rfl, rfl⟩, knows, knows⟩ walId frame
  refine ⟨?_, together.leftKnows⟩
  unfold EmbeddedDb.replayFrame replayFrameSearching
  split
  · rfl
  · have marked : ({ store with mutable := { store.mutable with
        walId := if store.mutable.walId = 0 ∨ walId < store.mutable.walId then walId
          else store.mutable.walId } } : Store).KnowsKeys := knows.sameRecords rfl rfl
    dsimp only
    rw [applyBatchLocked, (marked.batch frame _).1]

theorem change (knows : store.KnowsKeys) (changed : StoreChange store other) :
    other.KnowsKeys := by
  cases changed with
  | batch frame overlay => exact (knows.batch frame overlay).2
  | rotate =>
    unfold rotateMutableToImmutableLocked
    split
    · exact knows
    · refine knows.keep rfl fun records member => ?_
      simp only [tierRecords, Store.mems, reverse_append, reverse_cons, reverse_nil,
        nil_append, map_cons, cons_append, mem_cons] at member ⊢
      rcases member with rfl | rest
      · exact .inr rfl
      · exact .inl rest
  | renumber tables =>
    refine knows.sameRecords rfl ?_
    rw [tierRecords, tierRecords, Manifest.primaryTablesNewestFirst, Manifest.tablesNewestFirst,
      tables]
    rfl
  | install manifest => exact of_mems knows.mems
  | pop held =>
    refine knows.keep rfl fun records member => .inl ?_
    simp only [tierRecords, Store.mems, held, reverse_cons, map_cons, map_append,
      mem_append, mem_cons] at member ⊢
    tauto
  | take walId =>
    refine knows.keep rfl fun records member => ?_
    simp only [tierRecords, Store.mems, reverse_nil, map_cons, map_nil,
      cons_append, nil_append, mem_cons] at member
    rcases member with rfl | table
    · exact .inr rfl
    · exact .inl (mem_append_right _ table)

theorem changes (knows : store.KnowsKeys) (changed : StoreChanges store other) :
    other.KnowsKeys := by
  induction changed with
  | refl => exact knows
  | tail _ last ih => exact ih.change last

theorem lookupPrimaryLocked_eq (knows : store.KnowsKeys) (blobs : BlobDir) (key : Bytes) :
    lookupPrimaryLocked blobs store key =
      (store.searchTiers key).bind (resolveRecord blobs) := by
  rw [lookupPrimaryLocked, (knows.outRecord key).2, searchTiers]
  cases firstHit store.tierRecords key <;> rfl

end Store.KnowsKeys

/-- Opening: the tables first, then the log files, each lookup of the replay made in full. -/
theorem loadStore_searching (wals : SortedMap Nat WalFile) (manifest : Manifest) :
    loadStore wals manifest = loadStoreSearching wals manifest ∧
      (loadStore wals manifest).KnowsKeys := by
  have started : (rebuildTableCachesLocked
      { manifest, mutable := MemTable.new manifest.activeWalId, immutables := []
        maxKnownPrimaryKey := [], lastVisibleSequence := manifest.maxSequence
        applyGeneration := 0 }).KnowsKeys := by
    refine Store.KnowsKeys.of_mems fun mem member key record found => ?_
    rw [Store.mems, reverse_nil, mem_singleton] at member
    subst member
    cases found
  have kept := (foldl_noteKey manifest.primaryTablesNewestFirst
    { manifest, mutable := MemTable.new manifest.activeWalId, immutables := []
      maxKnownPrimaryKey := [], lastVisibleSequence := manifest.maxSequence
      applyGeneration := 0 }).1.manifest
  unfold loadStore loadStoreSearching replayWalLocked
  dsimp only
  rw [show (rebuildTableCachesLocked _).manifest = manifest from kept]
  have replayed := foldl_rel (l := replayedWals wals manifest) (f := replayWalFileLocked)
    (g := fun store entry => entry.2.frames.foldl (replayFrameSearching entry.1) store)
    (r := fun left right => left = right ∧ left.KnowsKeys) ⟨rfl, started⟩ ?_
  · exact replayed
  · rintro entry - left right ⟨rfl, knows⟩
    refine foldl_rel (r := fun left right : Store => left = right ∧ left.KnowsKeys)
      ⟨rfl, knows⟩ ?_
    rintro frame - left right ⟨rfl, knows⟩
    exact knows.replayFrame entry.1 frame

theorem openDb_knowsKeys (options : Options) (disk : Disk) :
    (openDb options disk).2.store.KnowsKeys := by
  unfold openDb
  rcases loadManifest disk with ⟨disk, manifest⟩
  dsimp only
  rw [Db.store_compactL0Locked]
  have loaded := (loadStore_searching disk.wals manifest).2
  refine Store.KnowsKeys.changes ?_ Db.cleanupCoveredWalFilesLocked_changes
  exact loaded.change (.renumber rfl)

/-- In every state of every run the known key bounds the tiers of the open process. -/
theorem knowsKeys_reached {world : World} (reached : Reaches World.step (fun _ _ => True)
    World.initial world) : ∀ db, world.db = some db → db.store.KnowsKeys := by
  refine @Reaches.invariant _ _ World.step _ World.initial _
    (fun world => ∀ db, world.db = some db → db.store.KnowsKeys) ?_ ?_ reached
  · intro db opened
    cases opened
  · intro world action following knows _ stepped db opened
    unfold World.step at stepped
    split at stepped
    · cases stepped
      cases opened
      exact openDb_knowsKeys _ _
    · contradiction
    · cases stepped
      cases opened
    · rename_i before active _
      exact (knows before active).changes (World.stepDb_changes stepped opened)

/-- The known-absent shortcut hides nothing: on every path to the table lookup it answers as
if every tier had been searched. -/
theorem knownAbsent_hides_nothing :
    (∀ (wals : SortedMap Nat WalFile) (manifest : Manifest),
      loadStore wals manifest = loadStoreSearching wals manifest) ∧
    ∀ (actions : List Action) (world : World) (db : Db),
      World.run actions = some world → world.db = some db →
      (∀ records ∈ db.store.tierRecords, ∀ key record, records.find? key = some record →
        key ≤ db.store.maxKnownPrimaryKey) ∧
      (∀ blobs key, lookupPrimaryLocked blobs db.store key =
        (db.store.searchTiers key).bind (resolveRecord blobs)) ∧
      ∀ frame overlay, applyBatchLockedMutable frame (db.store, overlay) =
        applyBatchSearching frame (db.store, overlay) := by
  constructor
  · exact fun wals manifest => (loadStore_searching wals manifest).1
  · intro actions world db ran opened
    have knows := knowsKeys_reached (.of_foldlM (fun _ _ => trivial) ran) db opened
    exact ⟨knows, knows.lookupPrimaryLocked_eq, fun frame overlay => (knows.batch frame overlay).1⟩

/-- Two puts fill a memtable, which is flushed. -/
def flushedRun : List Action :=
  [.openDb { lazyWrite := true, memTableBytes := 100, inlineBlobThresholdBytes := 100 },
    .submit [.put [1] [7] ∅], .apply 0, .submit [.put [2] [8] ∅], .apply 0,
    .flushTake, .flushWrite true, .flushCommit .ok, .flushPop]

theorem knownAbsent_hides_nothing_flushed :
    ∃ world db, World.run flushedRun = some world ∧ world.db = some db ∧
      db.store.maxKnownPrimaryKey = [2] ∧ db.store.mutable.primary = ∅ ∧
      ∀ blobs key, lookupPrimaryLocked blobs db.store key =
        (db.store.searchTiers key).bind (resolveRecord blobs) := by
  obtain ⟨world, db, ran, opened, known, emptied⟩ := @World.exists_of_run flushedRun
    (fun _ db => db.store.maxKnownPrimaryKey = [2] ∧ db.store.mutable.primary = ∅) _
    (by decide +kernel)
  exact ⟨world, db, ran, opened, known, emptied,
    (knownAbsent_hides_nothing.2 flushedRun world db ran opened).2.1⟩

end SwStack.EmbeddedDb
