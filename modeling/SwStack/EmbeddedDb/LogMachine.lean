import SwStack.EmbeddedDb.Db

/-! The machine as the log sees it: which frames are queued, which log file or table
holds them and which log files the tiers still need. Record contents, snapshots and
blob files are left out. Every action of the open process is one `LogStep`. -/
namespace SwStack.EmbeddedDb

open SwStack.Lib List

structure MemLog where
  walId : Nat
  minSeq : Nat
  maxSeq : Nat
  frames : List Frame

def MemTable.log (mem : MemTable) : MemLog :=
  { walId := mem.walId, minSeq := mem.minSeq, maxSeq := mem.maxSeq, frames := mem.frames }

structure ManifestLog where
  maxSequence : Nat
  replayFromWalId : Nat
  activeWalId : Nat
  nextWalId : Nat
  frames : List Frame

def Manifest.log (manifest : Manifest) : ManifestLog :=
  { maxSequence := manifest.maxSequence, replayFromWalId := manifest.replayFromWalId
    activeWalId := manifest.activeWalId, nextWalId := manifest.nextWalId
    frames := manifest.frames }

structure StoreLog where
  manifest : ManifestLog
  mutable : MemLog
  immutables : List MemLog
  lastVisibleSequence : Nat

def Store.log (store : Store) : StoreLog :=
  { manifest := store.manifest.log, mutable := store.mutable.log
    immutables := store.immutables.map MemTable.log
    lastVisibleSequence := store.lastVisibleSequence }

namespace MemLog

def new (walId : Nat) : MemLog := { walId, minSeq := 0, maxSeq := 0, frames := [] }

def noteFrame (activeWalId : Nat) (frame : Frame) (mem : MemLog) : MemLog :=
  { walId := if mem.walId = 0 ∨ activeWalId < mem.walId then activeWalId else mem.walId
    minSeq := if mem.minSeq = 0 ∨ frame.sequence < mem.minSeq then frame.sequence else mem.minSeq
    maxSeq := max mem.maxSeq frame.sequence
    frames := mem.frames ++ [frame] }

end MemLog

namespace StoreLog

def applied (store : StoreLog) (frame : Frame) : StoreLog :=
  { store with
    mutable := store.mutable.noteFrame store.manifest.activeWalId frame
    lastVisibleSequence := max store.lastVisibleSequence frame.sequence }

def rotated (store : StoreLog) : StoreLog :=
  { store with
    immutables := store.immutables ++ [store.mutable]
    manifest := { store.manifest with
      activeWalId := store.manifest.nextWalId, nextWalId := store.manifest.nextWalId + 1 }
    mutable := MemLog.new store.manifest.nextWalId }

def replayFrom (store : StoreLog) : Nat :=
  let start := if store.manifest.activeWalId = 0 then 1 else store.manifest.activeWalId
  (store.mutable :: store.immutables).foldl (fun start mem =>
    if mem.walId ≠ 0 then min start mem.walId else start) start

def installed (store : StoreLog) (mem : MemLog) : ManifestLog :=
  { store.manifest with
    maxSequence := max store.manifest.maxSequence mem.maxSeq
    replayFromWalId := store.replayFrom
    frames := store.manifest.frames ++ mem.frames }

end StoreLog

@[simp] theorem log_noteKey (store : Store) (key : Bytes) : (store.noteKey key).log = store.log := by
  simp only [Store.noteKey]
  split <;> rfl

theorem log_foldl_noteKey (keys : List PrimaryMemStore) (store : Store) :
    (keys.foldl (fun store records => store.noteKey (maxUserKey records)) store).log =
      store.log := by
  induction keys generalizing store with
  | nil => rfl
  | cons records rest ih => rw [foldl_cons, ih, log_noteKey]

@[simp] theorem log_rebuildTableCachesLocked (store : Store) :
    (rebuildTableCachesLocked store).log = store.log := log_foldl_noteKey _ _

@[simp] theorem manifest_rebuildTableCachesLocked (store : Store) :
    (rebuildTableCachesLocked store).manifest = store.manifest := by
  simp only [rebuildTableCachesLocked]
  generalize store.manifest.primaryTablesNewestFirst = tables
  induction tables generalizing store with
  | nil => rfl
  | cons records rest ih =>
    rw [foldl_cons, ih]
    simp only [Store.noteKey]
    split <;> rfl

@[simp] theorem log_emitSecondaryLocked (deleted : Bool) (key : Bytes) (keys : SecondaryKeys)
    (sequence : Nat) (mem : MemTable) :
    (emitSecondaryLocked deleted key keys sequence mem).log = mem.log := by
  simp only [emitSecondaryLocked]
  generalize keys.entries = entries
  induction entries generalizing mem with
  | nil => rfl
  | cons entry rest ih => rw [foldl_cons, ih]; rfl

@[simp] theorem log_noteBlobFile (op : Operation) (mem : MemTable) :
    (op.noteBlobFile mem).log = mem.log := by
  cases op <;> rfl

@[simp] theorem log_reserveBuckets (batch : WriteBatch) (mem : MemTable) :
    (mem.reserveBuckets batch).log = mem.log := by
  simp only [MemTable.reserveBuckets]
  generalize (batch.flatMap fun op => op.secondaryKeys.keys) = names
  induction names generalizing mem with
  | nil => rfl
  | cons name rest ih => rw [foldl_cons, ih]; rfl

theorem log_withMutable (store : Store) (mem : MemTable) (same : mem.log = store.mutable.log) :
    ({ store with mutable := mem } : Store).log = store.log := by
  simp only [Store.log, same]

theorem log_applyOperation (sequence : Nat) (state : Store × WriterOverlay) (op : Operation) :
    (applyOperation sequence state op).1.log = state.1.log := by
  obtain ⟨store, overlay⟩ := state
  simp only [applyOperation]
  generalize (if store.aboveMaxKnown op.primaryKey = true then none
    else store.outRecord op.primaryKey) = previous
  split
  · rfl
  · rw [log_noteKey]
    apply log_withMutable
    exact Eq.trans (by rfl) (((log_emitSecondaryLocked _ _ _ _ _).trans
      (log_noteBlobFile _ _)).trans (log_emitSecondaryLocked _ _ _ _ _))

theorem log_applyBatchLockedMutable (frame : Frame) (state : Store × WriterOverlay) :
    (applyBatchLockedMutable frame state).1.log = state.1.log.applied frame := by
  have folded : ∀ (ops : List Operation) (state : Store × WriterOverlay),
      (ops.foldl (applyOperation frame.sequence) state).1.log = state.1.log := by
    intro ops
    induction ops with
    | nil => intro state; rfl
    | cons op rest ih => intro state; rw [foldl_cons, ih, log_applyOperation]
  have reserved := folded frame.batch
    ({ state.1 with
        applyGeneration := state.1.applyGeneration + 1
        mutable := (state.1.mutable.noteFrame state.1.manifest.activeWalId frame).reserveBuckets
          frame.batch }, state.2)
  have mutableLog := log_reserveBuckets frame.batch
    (state.1.mutable.noteFrame state.1.manifest.activeWalId frame)
  simp only [Store.log] at reserved
  simp only [applyBatchLockedMutable, Store.log, StoreLog.applied]
  injection reserved with manifest mem immutables visible
  rw [manifest, mem, immutables, visible, mutableLog]
  rfl

theorem log_rotateMutableToImmutableLocked (store : Store) :
    (rotateMutableToImmutableLocked store).log = store.log ∨
      (rotateMutableToImmutableLocked store).log = store.log.rotated := by
  simp only [rotateMutableToImmutableLocked]
  split
  · exact .inl rfl
  · right
    simp [Store.log, StoreLog.rotated, Manifest.log, MemTable.log, MemLog.new, MemTable.new]

theorem replayFrom_log (store : Store) : replayFrom store = store.log.replayFrom := by
  simp only [replayFrom, StoreLog.replayFrom, Store.log, foldl_cons, foldl_map]
  rfl

theorem log_install (task : FlushTask) (store : Store) :
    (task.install store).log = store.log.installed task.mem.log := by
  simp only [FlushTask.install, Manifest.log, StoreLog.installed, replayFrom_log]
  rfl

/-- `flushing` is the memtable a background flush works on, and whether its tables are
installed. `closeFlush` is the merged memtable of `flushAllSync_`. -/
structure LogState where
  store : StoreLog
  persisted : Option ManifestLog
  wals : SortedMap Nat WalFile
  nextSequence : Nat
  lastDurableSequence : Nat
  tickets : List Request
  pendingWrites : List Request
  service : ServiceStage
  activeWalFileId : Nat
  backgroundWriteError : Bool
  flushing : Option (MemLog × Bool)
  closing : Bool
  stopping : Bool
  closeFlush : Option MemLog
  acknowledged : List Request
  walFrames : List (Nat × Frame)
  held : List MemLog

def FlushStage.log : FlushStage → Option (MemLog × Bool)
  | .writing task => some (task.mem.log, false)
  | .installed mem => some (mem.log, true)
  | .idle | .running => none

def CloseStage.flush : CloseStage → Option MemLog
  | .flushing task => some task.mem.log
  | _ => none

/-- The write service has been told to stop and has stopped. -/
def CloseStage.past : CloseStage → Bool
  | .no | .begun => false
  | .stopped | .flushing _ | .flushed => true

def Db.log (disk : Disk) (db : Db) : LogState :=
  { store := db.store.log
    persisted := disk.persisted.map Manifest.log
    wals := disk.wals
    nextSequence := db.nextSequence
    lastDurableSequence := db.lastDurableSequence
    tickets := db.tickets
    pendingWrites := db.pendingWrites
    service := db.service
    activeWalFileId := db.activeWalFileId
    backgroundWriteError := db.backgroundWriteError
    flushing := db.flush.log
    closing := decide (db.close ≠ .no)
    stopping := db.close.past
    closeFlush := db.close.flush
    acknowledged := db.acknowledged
    walFrames := db.walFrames
    held := db.held.map MemTable.log }

namespace LogState

def wal (state : LogState) (walId : Nat) : WalFile :=
  (state.wals.find? walId).getD WalFile.empty

/-- The memtables whose contents no table carries yet. -/
def mems (state : LogState) : List MemLog :=
  state.store.mutable :: state.store.immutables ++ state.held

def submitted (state : LogState) (batch : WriteBatch) (wait : Bool) : LogState :=
  { state with
    nextSequence := state.nextSequence + 1
    tickets := state.tickets ++
      [{ frame := { sequence := state.nextSequence, batch }, waitForDurable := wait }] }

def applied (state : LogState) (index : Nat) (request : Request) : LogState :=
  { state with
    store := state.store.applied request.frame
    tickets := state.tickets.eraseIdx index
    pendingWrites := state.pendingWrites ++ [request]
    acknowledged := if request.waitForDurable then state.acknowledged
      else state.acknowledged ++ [request] }

/-- The frames of `group` an append writes before it fails or ends. -/
def appendedFrames (group : List Request) (failAfter : Option Nat) : List Frame :=
  (group.take (failAfter.getD group.length)).map Request.frame

def appended (state : LogState) (group : List Request) (target : Nat) (failAfter : Option Nat) :
    LogState :=
  let frames := appendedFrames group failAfter
  let file := state.wal state.activeWalFileId
  { state with
    wals := state.wals.insert state.activeWalFileId
      { file with unsynced := file.unsynced ++ frames }
    walFrames := state.walFrames ++ frames.map fun frame => (state.activeWalFileId, frame)
    service := if failAfter.isNone then .appended group target else .failed group }

def synced (state : LogState) (group : List Request) (target : Nat) : LogState :=
  { state with
    wals := state.wals.insert state.activeWalFileId
      { synced := (state.wal state.activeWalFileId).frames, unsynced := [] }
    lastDurableSequence := max state.lastDurableSequence target
    service := .committed group target }

def rotated (state : LogState) : LogState := { state with store := state.store.rotated }

/-- The tables of `mem` are in the saved manifest. -/
def installed (state : LogState) (mem : MemLog) : LogState :=
  { state with
    store := { state.store with manifest := state.store.installed mem }
    persisted := some (state.store.installed mem) }

/-- `flushAllSync_` took the memtables. -/
def taken (state : LogState) (held : List MemLog) : LogState :=
  { state with
    store := { state.store with
      immutables := [], mutable := MemLog.new state.store.manifest.activeWalId }
    held }

/-- `cleanupCoveredWalFilesLocked` -/
def cleaned (state : LogState) : LogState :=
  { state with
    store := { state.store with
      manifest := { state.store.manifest with replayFromWalId := state.store.replayFrom } }
    wals := state.wals.filter fun walId _ =>
      !(walId ≠ 0 && walId < state.store.replayFrom && walId ≠ state.activeWalFileId) }

end LogState

/-- What the directory's manifest can be after `persistManifestLocked`: a `CURRENT` that
was not rewritten may already name the file that was. -/
inductive Saves (manifest : ManifestLog) (before : Option ManifestLog) :
    PersistOutcome → Option ManifestLog → Prop where
  | ok : Saves manifest before .ok (some manifest)
  | kept : outcome ≠ .ok → Saves manifest before outcome before
  | replaced : Saves manifest before .failCurrent (some manifest)

inductive LogStep (state : LogState) : Action → LogState → Prop where
  | quiet : LogStep state action state
  | submit (wait : Bool) : state.closing = false → state.backgroundWriteError = false →
      LogStep state (.submit batch) (state.submitted batch wait)
  | refuse : LogStep state (.apply index) { state with tickets := state.tickets.eraseIdx index }
  | apply : state.tickets[index]? = some request → state.closing = false →
      state.backgroundWriteError = false →
      LogStep state (.apply index) (state.applied index request)
  | applyRotate : state.tickets[index]? = some request → state.closing = false →
      state.backgroundWriteError = false →
      LogStep state (.apply index) (state.applied index request).rotated
  | drain : state.service = .idle → state.pendingWrites ≠ [] →
      LogStep state .drain { state with
        service := .drained state.pendingWrites (Db.groupTarget state.pendingWrites)
        pendingWrites := [] }
  | openFails : state.service = .drained group target →
      LogStep state (.openWal ok) { state with service := .failed group }
  | openSame : state.service = .drained group target →
      state.activeWalFileId = state.store.manifest.activeWalId →
      LogStep state (.openWal ok) { state with service := .opened group target }
  | openNext : state.service = .drained group target →
      LogStep state (.openWal ok) { state with
        wals := state.wals.insert state.store.manifest.activeWalId
          (state.wal state.store.manifest.activeWalId)
        activeWalFileId := state.store.manifest.activeWalId
        service := .opened group target }
  | append : state.service = .opened group target →
      LogStep state (.appendWal failAfter) (state.appended group target failAfter)
  | sync : state.service = .appended group target →
      LogStep state (.syncWal true) (state.synced group target)
  | syncFails : state.service = .appended group target →
      LogStep state (.syncWal false) { state with service := .failed group }
  | answer : state.service = .committed group target →
      LogStep state .finalize { state with
        lastDurableSequence := max state.lastDurableSequence target
        acknowledged := state.acknowledged ++ group.filter Request.waitForDurable
        service := .idle }
  | stop : state.service = .failed group →
      LogStep state .finalize { state with backgroundWriteError := true, service := .stopped }
  | flushTake : state.closing = false → state.store.immutables = mem :: rest →
      LogStep state .flushTake { state with flushing := some (mem, false) }
  | flushEnds : LogStep state action { state with flushing := none }
  | install : state.flushing = some (mem, false) → state.closing = true →
      LogStep state (.flushCommit .ok) { state.installed mem with flushing := some (mem, true) }
  | installClean : state.flushing = some (mem, false) → state.closing = false →
      LogStep state (.flushCommit .ok)
        { state.installed mem with flushing := some (mem, true) }.cleaned
  | installFails : state.flushing = some (mem, false) → outcome ≠ .ok →
      Saves (state.store.installed mem) state.persisted outcome saved →
      LogStep state (.flushCommit outcome) { state with persisted := saved, flushing := none }
  | pop (rest : List MemLog) : state.flushing = some (mem, true) →
      state.store.immutables = first :: rest →
      LogStep state .flushPop { state with
        store := { state.store with immutables := rest }, flushing := none }
  | save : Saves state.store.manifest state.persisted outcome saved →
      LogStep state action { state with persisted := saved }
  | closeBegin : LogStep state .closeBegin { state with closing := true }
  | closeStop : state.service = .stopped ∨ state.service = .idle ∧ state.pendingWrites = [] →
      state.closing = true → state.stopping = false →
      LogStep state .closeStop { state with
        stopping := true, service := .stopped, pendingWrites := [] }
  | closeTake (kept : List MemLog) (merged : MemLog) : state.closing = true →
      state.stopping = true → state.closeFlush = none →
      kept = [] ∨ kept = [state.store.mutable] →
      (∀ mem ∈ state.store.immutables ++ kept, ∀ frame ∈ mem.frames, frame ∈ merged.frames) →
      LogStep state (.closeTake outcome)
        { state.taken (state.store.immutables ++ kept) with closeFlush := some merged }
  | closeTakeNone : state.closing = true → state.stopping = true →
      state.store.immutables = [] →
      Saves state.store.manifest state.persisted outcome saved →
      LogStep state (.closeTake outcome) { state.taken [] with persisted := saved }
  | closeFails : LogStep state action { state with closeFlush := none }
  | closeInstall : state.closeFlush = some mem → state.closing = true →
      LogStep state (.closeCommit .ok) { state.installed mem with closeFlush := none, held := [] }
  | closeInstallFails : state.closeFlush = some mem → outcome ≠ .ok →
      Saves (state.store.installed mem) state.persisted outcome saved →
      LogStep state (.closeCommit outcome) { state with persisted := saved, closeFlush := none }

variable {db : Db}

namespace Db

theorem persisted_persistManifestLocked (outcome : PersistOutcome) (manifest : Manifest)
    (disk : Disk) :
    Saves manifest.log (disk.persisted.map Manifest.log) outcome
      ((disk.persistManifestLocked outcome manifest).persisted.map Manifest.log) := by
  cases outcome with
  | ok =>
    simp only [Disk.persistManifestLocked, Disk.persisted, Option.bind_some,
      SortedMap.find?_insert_self, Option.map_some]
    exact .ok
  | failManifest => exact .kept (by decide)
  | failCurrent =>
    simp only [Disk.persistManifestLocked, Disk.persisted]
    cases current : disk.current with
    | none => exact .kept (by decide)
    | some id =>
      simp only [Option.bind_some, SortedMap.find?_insert]
      split
      · exact .replaced
      · exact .kept (by decide)

theorem wals_persistManifestLocked (outcome : PersistOutcome) (manifest : Manifest) (disk : Disk) :
    (disk.persistManifestLocked outcome manifest).wals = disk.wals := by
  cases outcome <;> rfl

theorem log_saveManifest_ok (manifest : Manifest) (disk : Disk) (db : Db) :
    (db.saveManifest .ok manifest disk).2.log (db.saveManifest .ok manifest disk).1 =
      { db.log disk with
        store := { (db.log disk).store with manifest := manifest.log }
        persisted := some manifest.log } := by
  have cached := log_rebuildTableCachesLocked { db.store with manifest }
  simp only [Store.log] at cached
  injection cached with _ mem immutables visible
  simp only [saveManifest, Db.log, Store.log, if_true, mem, immutables, visible]
  simp only [Disk.persistManifestLocked, Disk.persisted, Option.bind_some,
    SortedMap.find?_insert_self, Option.map_some]
  rfl

theorem log_saveManifest_fails (failed : outcome ≠ .ok)
    (manifest : Manifest) (disk : Disk) (db : Db) :
    (db.saveManifest outcome manifest disk).2.log (db.saveManifest outcome manifest disk).1 =
      { db.log disk with
        persisted := (disk.persistManifestLocked outcome manifest).persisted.map Manifest.log } := by
  have rolledBack : ∀ (store : Store) (manifest : Manifest),
      (rebuildTableCachesLocked { rebuildTableCachesLocked { store with manifest } with
        manifest := store.manifest }).log = store.log := by
    intro store manifest
    have cached := log_rebuildTableCachesLocked { store with manifest }
    rw [log_rebuildTableCachesLocked]
    simp only [Store.log] at cached ⊢
    injection cached with _ mem immutables visible
    simp only [mem, immutables, visible]
  simp only [saveManifest, Db.log, if_neg failed, rolledBack, wals_persistManifestLocked]

@[simp] theorem log_compactL0Locked (disk : Disk) (db : Db) :
    db.compactL0Locked.log disk = db.log disk := by
  simp only [compactL0Locked]
  split
  · rfl
  · split <;> rfl

@[simp] theorem log_scheduleBlobGcLocked (disk : Disk) (db : Db) :
    db.scheduleBlobGcLocked.log disk = db.log disk := by
  simp only [scheduleBlobGcLocked]
  split <;> rfl

@[simp] theorem log_scheduleFlushLocked (disk : Disk) (db : Db) :
    db.scheduleFlushLocked.log disk = db.log disk := by
  simp only [scheduleFlushLocked]
  split
  · rfl
  · rename_i unscheduled
    have idle : db.flush = .idle := by
      by_contra busy
      exact unscheduled (.inl busy)
    simp only [Db.log, idle]
    rfl

@[simp] theorem log_overlayMaybeCollapse (disk : Disk) (db : Db) :
    (overlayMaybeCollapse db).log disk = db.log disk := by
  simp only [overlayMaybeCollapse]
  split
  · rfl
  · split <;> rfl

theorem log_applyFrame (disk : Disk) (db : Db) (frame : Frame) :
    (db.applyFrame frame).log disk =
      { db.log disk with store := (db.log disk).store.applied frame } := by
  simp only [applyFrame, Db.log, log_applyBatchLockedMutable]
  rfl

theorem log_cleanupCoveredWalFilesLocked (disk : Disk) (db : Db) :
    (db.cleanupCoveredWalFilesLocked disk).2.log (db.cleanupCoveredWalFilesLocked disk).1 =
      (db.log disk).cleaned := by
  simp only [cleanupCoveredWalFilesLocked, Db.log, LogState.cleaned, Disk.removeCoveredWals,
    replayFrom_log]
  rfl

theorem log_withManifest (disk : Disk) (db : Db) (manifest : Manifest) (blobs : BlobDir)
    (same : manifest.log = db.store.manifest.log) :
    ({ db with store := { db.store with manifest } } : Db).log { disk with blobs } =
      db.log disk := by
  simp only [Db.log, Store.log, same]
  rfl

variable {next : Db}

theorem assignSequence_log (disk : Disk) (stepped : db.assignSequence batch = some next) :
    LogStep (db.log disk) (.submit batch) (next.log disk) := by
  simp only [assignSequence] at stepped
  split at stepped
  · contradiction
  · rename_i admitted
    obtain ⟨notClosing, noError, -, -⟩ : ¬ db.closing = true ∧ ¬ db.backgroundWriteError = true ∧
        _ ∧ _ := by simpa only [not_or] using admitted
    cases stepped
    exact .submit (!db.options.lazyWrite) (Bool.eq_false_of_not_eq_true notClosing)
      (Bool.eq_false_of_not_eq_true noError)

theorem log_applied (disk : Disk) (db : Db) (index : Nat) (request : Request) (after : Db)
    (applied : overlayMaybeCollapse (applyFrame request.frame
      { db with tickets := db.tickets.eraseIdx index }) = after) :
    Db.log disk { after with
        pendingWrites := after.pendingWrites ++ [request]
        acknowledged := if request.waitForDurable then after.acknowledged
          else after.acknowledged ++ [request] } = (db.log disk).applied index request := by
  have afterLog : after.log disk =
      { db.log disk with
        store := (db.log disk).store.applied request.frame
        tickets := db.tickets.eraseIdx index } := by
    rw [← applied, log_overlayMaybeCollapse, log_applyFrame]
    rfl
  calc Db.log disk _ = { after.log disk with
          pendingWrites := (after.log disk).pendingWrites ++ [request]
          acknowledged := if request.waitForDurable then (after.log disk).acknowledged
            else (after.log disk).acknowledged ++ [request] } := rfl
    _ = _ := by rw [afterLog]; rfl

theorem log_rotate (disk : Disk) (db : Db) :
    Db.log disk { db with store := rotateMutableToImmutableLocked db.store } = db.log disk ∨
    Db.log disk { db with store := rotateMutableToImmutableLocked db.store } =
      (db.log disk).rotated := by
  rcases log_rotateMutableToImmutableLocked db.store with same | rotated
  · left
    simp only [Db.log, same]
  · right
    simp only [Db.log, rotated, LogState.rotated]

theorem applyRequest_log (disk : Disk) (stepped : db.applyRequest index = some next) :
    LogStep (db.log disk) (.apply index) (next.log disk) := by
  simp only [applyRequest, Option.bind_eq_bind, Option.bind_eq_some_iff] at stepped
  obtain ⟨request, found, stepped⟩ := stepped
  split at stepped
  · cases stepped
    exact .refuse
  · rename_i admitted
    obtain ⟨notClosing, noError⟩ := not_or.mp admitted
    have notClosing : db.closing = false := Bool.eq_false_of_not_eq_true notClosing
    have noError : db.backgroundWriteError = false := Bool.eq_false_of_not_eq_true noError
    have applied := log_applied disk db index request _ rfl
    split at stepped
    · cases stepped
      rw [log_scheduleFlushLocked]
      rcases log_rotate disk _ with same | rotated
      · exact (same.trans applied) ▸ .apply found notClosing noError
      · rw [applied] at rotated
        exact rotated ▸ .applyRotate found notClosing noError
    · cases stepped
      exact applied ▸ .apply found notClosing noError

theorem drainWriteRequests_log (disk : Disk) (stepped : db.drainWriteRequests = some next) :
    LogStep (db.log disk) .drain (next.log disk) := by
  simp only [drainWriteRequests] at stepped
  split at stepped
  · rename_i request pending idle queued
    cases stepped
    have present : db.pendingWrites ≠ [] := by simp [queued]
    have step : LogStep (db.log disk) .drain _ := .drain idle present
    simpa only [Db.log, queued] using step
  · contradiction

variable {disk : Disk} {result : Disk × Db}

theorem openActiveWal_log (stepped : db.openActiveWal ok disk = some result) :
    LogStep (db.log disk) (.openWal ok) (result.2.log result.1) := by
  simp only [openActiveWal] at stepped
  split at stepped
  · rename_i group target drained
    split at stepped
    · cases stepped
      exact .openFails drained
    · split at stepped
      · rename_i same
        cases stepped
        exact .openSame drained same
      · split at stepped
        · cases stepped
          exact .openNext drained
        · cases stepped
          exact .openFails drained
  · contradiction

theorem appendWal_log (stepped : db.appendWal failAfter disk = some result) :
    LogStep (db.log disk) (.appendWal failAfter) (result.2.log result.1) := by
  simp only [appendWal] at stepped
  split at stepped
  · rename_i group target opened
    cases stepped
    exact .append opened
  · contradiction

theorem syncWal_log (stepped : db.syncWal ok disk = some result) :
    LogStep (db.log disk) (.syncWal ok) (result.2.log result.1) := by
  simp only [syncWal] at stepped
  split at stepped
  · rename_i group target appended
    cases ok with
    | true =>
      cases stepped
      exact .sync appended
    | false =>
      cases stepped
      exact .syncFails appended
  · contradiction

theorem finalizeWriteRequests_log (disk : Disk) (stepped : db.finalizeWriteRequests = some next) :
    LogStep (db.log disk) .finalize (next.log disk) := by
  simp only [finalizeWriteRequests] at stepped
  split at stepped
  · rename_i group target committed
    cases stepped
    exact .answer committed
  · rename_i group failed
    cases stepped
    exact .stop failed
  · contradiction

theorem flushTake_log (disk : Disk) (stepped : db.flushTake = some next) :
    LogStep (db.log disk) .flushTake (next.log disk) := by
  simp only [flushTake] at stepped
  split at stepped
  · split at stepped
    · rename_i mem rest queued
      split at stepped
      · cases stepped
        exact .flushEnds
      · rename_i notClosing
        cases stepped
        have head : (db.log disk).store.immutables = mem.log :: rest.map MemTable.log := by
          simp only [Db.log, Store.log, queued, map_cons]
        exact .flushTake (Bool.eq_false_of_not_eq_true notClosing) head
    · cases stepped
      exact .flushEnds
  · contradiction

variable {manifest : Manifest}

theorem log_writeNext_mem {task next : FlushTask} {after : Manifest} {blobs : BlobDir}
    (written : task.writeNext threshold manifest blobs = some (next, after, written')) :
    next.mem = task.mem ∧ after.log = manifest.log := by
  simp only [FlushTask.writeNext] at written
  split at written
  · contradiction
  · cases written
    exact ⟨rfl, rfl⟩
  · cases written
    exact ⟨rfl, rfl⟩

theorem flushWrite_log (stepped : db.flushWrite ok disk = some result) :
    LogStep (db.log disk) (.flushWrite ok) (result.2.log result.1) := by
  simp only [flushWrite] at stepped
  split at stepped
  · rename_i task writing
    split at stepped
    · contradiction
    · rename_i next manifest blobs written
      obtain ⟨sameMem, sameLog⟩ := log_writeNext_mem written
      cases stepped
      have unchanged := log_withManifest disk db manifest blobs sameLog
      cases ok with
      | true =>
        have same : Db.log { disk with blobs } { db with
            store := { db.store with manifest }, flush := .writing next } = db.log disk := by
          rw [← unchanged]
          simp only [Db.log, FlushStage.log, writing, sameMem]
        exact same ▸ .quiet
      | false =>
        have ended : Db.log { disk with blobs } { db with
            store := { db.store with manifest }, flush := .idle } =
              { db.log disk with flushing := none } := by
          rw [← unchanged]
          rfl
        exact ended ▸ .flushEnds
  · contradiction

theorem log_withFlush (disk : Disk) (db : Db) (flush : FlushStage) :
    Db.log disk { db with flush } = { db.log disk with flushing := flush.log } := rfl

theorem flushCommit_log (stepped : db.flushCommit outcome disk = some result) :
    LogStep (db.log disk) (.flushCommit outcome) (result.2.log result.1) := by
  simp only [flushCommit] at stepped
  split at stepped
  · rename_i task writing
    split at stepped
    · contradiction
    · have flushing : (db.log disk).flushing = some (task.mem.log, false) := by
        simp only [Db.log, FlushStage.log, writing]
      by_cases ok : outcome = .ok
      · subst ok
        have saved := log_saveManifest_ok (task.install db.store) disk db
        have sameClose : (db.saveManifest .ok (task.install db.store) disk).2.close = db.close := rfl
        rw [log_install] at saved
        generalize db.saveManifest .ok (task.install db.store) disk = after at saved sameClose stepped
        have installed : Db.log after.1 { after.2 with flush := .installed task.mem } =
            { (db.log disk).installed task.mem.log with flushing := some (task.mem.log, true) } := by
          rw [log_withFlush, saved]
          rfl
        rw [if_pos rfl] at stepped
        cases stepped
        simp only [afterInstall]
        split
        · rename_i closed
          simp only [closing, sameClose] at closed
          rw [installed]
          exact .install flushing closed
        · rename_i notClosing
          have notClosing := Bool.eq_false_of_not_eq_true notClosing
          simp only [closing, sameClose] at notClosing
          rw [log_scheduleBlobGcLocked, log_compactL0Locked, log_cleanupCoveredWalFilesLocked,
            installed]
          exact .installClean flushing notClosing
      · have failed := log_saveManifest_fails ok (task.install db.store) disk db
        generalize db.saveManifest outcome (task.install db.store) disk = after at failed stepped
        rw [if_neg ok] at stepped
        cases stepped
        have saves := persisted_persistManifestLocked outcome (task.install db.store) disk
        rw [log_install] at saves
        have ended : Db.log after.1 { after.2 with flush := .idle } =
            { db.log disk with
              persisted := (disk.persistManifestLocked outcome
                (task.install db.store)).persisted.map Manifest.log
              flushing := none } := by
          rw [log_withFlush, failed]
          rfl
        exact ended ▸ .installFails flushing ok saves
  · contradiction

theorem flushPop_log (disk : Disk) (stepped : db.flushPop = some next) :
    LogStep (db.log disk) .flushPop (next.log disk) := by
  simp only [flushPop] at stepped
  split at stepped
  · rename_i mem installed
    have flushing : (db.log disk).flushing = some (mem.log, true) := by
      simp only [Db.log, FlushStage.log, installed]
    split at stepped
    · rename_i first rest queued
      split at stepped
      · cases stepped
        have head : (db.log disk).store.immutables = first.log :: rest.map MemTable.log := by
          simp only [Db.log, Store.log, queued, map_cons]
        exact .pop _ flushing head
      · cases stepped
        exact .flushEnds
    · cases stepped
      exact .flushEnds
  · contradiction

theorem compactStart_log (disk : Disk) (stepped : db.compactStart = some next) :
    LogStep (db.log disk) .compactStart (next.log disk) := by
  simp only [compactStart] at stepped
  split at stepped
  · split at stepped <;> cases stepped <;> exact .quiet
  · contradiction

theorem compactWrite_log (disk : Disk) (stepped : db.compactWrite ok = some next) :
    LogStep (db.log disk) (.compactWrite ok) (next.log disk) := by
  simp only [compactWrite] at stepped
  split at stepped
  · rename_i job _
    split at stepped
    · contradiction
    · rename_i next' manifest written
      have sameLog : manifest.log = db.store.manifest.log := by
        simp only [CompactionJob.writeNext] at written
        split at written
        · contradiction
        · cases written
          rfl
      cases stepped
      have same : Db.log disk { db with
          store := { db.store with manifest }
          compaction := if ok = true then .writing next' else .idle } = db.log disk :=
        log_withManifest disk db manifest disk.blobs sameLog
      exact same ▸ .quiet
  · contradiction

theorem log_saveManifest_same (outcome : PersistOutcome)
    (disk : Disk) (same : manifest.log = db.store.manifest.log) :
    (db.saveManifest outcome manifest disk).2.log (db.saveManifest outcome manifest disk).1 =
      { db.log disk with
        persisted := (disk.persistManifestLocked outcome manifest).persisted.map Manifest.log } := by
  by_cases ok : outcome = .ok
  · subst ok
    rw [log_saveManifest_ok, same]
    simp only [Disk.persistManifestLocked, Disk.persisted, Option.bind_some,
      SortedMap.find?_insert_self, Option.map_some, same]
    rfl
  · exact log_saveManifest_fails ok manifest disk db

theorem log_resave (action : Action) (outcome : PersistOutcome) (disk : Disk)
    (same : manifest.log = db.store.manifest.log) :
    LogStep (db.log disk) action
      ((db.saveManifest outcome manifest disk).2.log (db.saveManifest outcome manifest disk).1) := by
  have saves := persisted_persistManifestLocked outcome manifest disk
  rw [same] at saves
  rw [log_saveManifest_same outcome disk same]
  exact .save saves

theorem compactCommit_log (stepped : db.compactCommit outcome disk = some result) :
    LogStep (db.log disk) (.compactCommit outcome) (result.2.log result.1) := by
  simp only [compactCommit] at stepped
  split at stepped
  · rename_i job _
    split at stepped
    · contradiction
    · split at stepped
      · cases stepped
        exact .quiet
      · have sameLog : (replaceTables job.toRemove job.written db.store.manifest).log =
            db.invalidateWriterReadCacheLocked.store.manifest.log := rfl
        have step := log_resave (.compactCommit outcome) outcome disk sameLog
        split at stepped
        · cases stepped
          rw [log_scheduleBlobGcLocked, log_compactL0Locked]
          exact step
        · cases stepped
          exact step
  · contradiction

theorem gcStart_log (stepped : db.gcStart disk = some next) :
    LogStep (db.log disk) .gcStart (next.log disk) := by
  simp only [gcStart] at stepped
  split at stepped
  · split at stepped
    · cases stepped
      exact .quiet
    · split at stepped <;> cases stepped <;> exact .quiet
  · contradiction

theorem gcList_log (stepped : db.gcList disk = some next) :
    LogStep (db.log disk) .gcList (next.log disk) := by
  simp only [gcList] at stepped
  split at stepped
  · split at stepped <;> cases stepped <;> exact .quiet
  · contradiction

theorem log_writeGcTable (threshold : Nat) (rows : List (Bytes × LiveRecord × Nat × Bytes))
    (manifest : Manifest) (blobs : BlobDir) :
    (writeGcTable threshold rows manifest blobs).2.2.1.log = manifest.log := by
  simp only [writeGcTable]
  split <;> rfl

theorem gcWrite_log (stepped : db.gcWrite ok disk = some result) :
    LogStep (db.log disk) (.gcWrite ok) (result.2.log result.1) := by
  simp only [gcWrite] at stepped
  split at stepped
  · rename_i scan _ _
    cases stepped
    have same := log_withManifest disk db _
      (writeGcTable db.options.inlineBlobThresholdBytes scan.rows db.store.manifest
        disk.blobs).2.2.2
      (log_writeGcTable db.options.inlineBlobThresholdBytes scan.rows db.store.manifest disk.blobs)
    exact same ▸ .quiet
  · contradiction

theorem log_discardBlobFile (fileId : Nat) (disk : Disk) (db : Db) :
    db.log (discardBlobFile fileId disk) = db.log disk := by
  simp only [discardBlobFile]
  split <;> rfl

theorem gcCommit_log (stepped : db.gcCommit outcome disk = some result) :
    LogStep (db.log disk) (.gcCommit outcome) (result.2.log result.1) := by
  simp only [gcCommit] at stepped
  split at stepped
  · rename_i scan _ table _ _
    split at stepped
    · cases stepped
      rw [log_discardBlobFile]
      exact .quiet
    · have sameLog : (replaceTables scan.oldPrimaryTables table.toList db.store.manifest).log =
          (invalidateWriterReadCacheLocked { db with blobGc := .idle }).store.manifest.log := rfl
      have step := log_resave (.gcCommit outcome) outcome disk sameLog
      split at stepped
      · cases stepped
        exact step
      · cases stepped
        rw [log_discardBlobFile]
        exact step
  · contradiction

theorem gcRemove_log (stepped : db.gcRemove index disk = some result) :
    LogStep (db.log disk) (.gcRemove index) (result.2.log result.1) := by
  simp only [gcRemove, Option.bind_eq_bind, Option.bind_eq_some_iff] at stepped
  obtain ⟨fileId, -, stepped⟩ := stepped
  cases stepped
  exact .quiet

theorem createSnapshot_log (disk : Disk) {result : Nat × Db}
    (stepped : db.createSnapshot = some result) :
    LogStep (db.log disk) .createSnapshot (result.2.log disk) := by
  simp only [createSnapshot] at stepped
  split at stepped
  · contradiction
  · split at stepped
    · cases stepped
      exact .quiet
    · split at stepped
      · cases stepped
        exact .quiet
      · split at stepped
        · cases stepped
          exact .quiet
        · split at stepped <;> cases stepped <;> exact .quiet

theorem openBlob_log (stepped : db.openBlob index fileId disk = some next) :
    LogStep (db.log disk) (.openBlob index fileId) (next.log disk) := by
  simp only [openBlob, Option.bind_eq_bind, Option.bind_eq_some_iff] at stepped
  obtain ⟨snapshot, -, stepped⟩ := stepped
  cases stepped
  exact .quiet

theorem closeBegin_log (disk : Disk) (stepped : db.closeBegin = some next) :
    LogStep (db.log disk) .closeBegin (next.log disk) := by
  simp only [closeBegin] at stepped
  split at stepped
  · contradiction
  · rename_i notClosing
    have open' : db.close = .no := by simpa [closing] using notClosing
    cases stepped
    have begun : Db.log disk { db with close := .begun } =
        { db.log disk with closing := true } := by
      simp only [Db.log, open']
      rfl
    exact begun ▸ .closeBegin

theorem closeStop_log (disk : Disk) (stepped : db.closeStop = some next) :
    LogStep (db.log disk) .closeStop (next.log disk) := by
  simp only [closeStop] at stepped
  split at stepped
  · rename_i ready
    obtain ⟨begun, stopped⟩ := ready
    cases stepped
    have step : LogStep (db.log disk) .closeStop _ := .closeStop stopped
      (by simp only [Db.log, begun]; decide) (by simp only [Db.log, begun]; rfl)
    simp only [Db.log, begun] at step ⊢
    exact step
  · contradiction

theorem pendingMems_log (store : Store) :
    ∃ kept : List MemTable, (kept = [] ∨ kept = [store.mutable]) ∧
      pendingMems store = store.immutables ++ kept := by
  simp only [pendingMems]
  split
  · exact ⟨[], .inl rfl, rfl⟩
  · exact ⟨_, .inr rfl, rfl⟩

theorem frames_mergeMemTablesForFlush (mems : List MemTable) :
    (mergeMemTablesForFlush mems).frames = mems.flatMap MemTable.frames := by
  have folded : ∀ (mems : List MemTable) (target : MemTable),
      (mems.foldl mergeMemTableInto target).frames =
        target.frames ++ mems.flatMap MemTable.frames := by
    intro mems
    induction mems with
    | nil => intro target; simp
    | cons mem rest ih =>
      intro target
      rw [foldl_cons, ih, flatMap_cons, ← append_assoc]
      rfl
  exact folded mems (MemTable.new 0)

theorem closeTake_log (stepped : db.closeTake outcome disk = some result) :
    LogStep (db.log disk) (.closeTake outcome) (result.2.log result.1) := by
  simp only [closeTake] at stepped
  split at stepped
  · contradiction
  · rename_i phase
    have phase : db.close = .stopped := not_not.mp phase
    have closing : (db.log disk).closing = true := by simp only [Db.log, phase]; rfl
    have stopping : (db.log disk).stopping = true := by simp only [Db.log, phase]; rfl
    obtain ⟨kept, keptCases, pending⟩ := pendingMems_log db.store
    split at stepped
    · rename_i empty
      rw [pending, append_eq_nil_iff] at empty
      generalize taken : ({ db with
        store := { db.store with
          immutables := [], mutable := MemTable.new db.store.manifest.activeWalId }
        held := pendingMems db.store } : Db) = db' at stepped
      have takenLog : db'.log disk = (db.log disk).taken [] := by
        rw [← taken]
        simp only [Db.log, pending, empty]
        rfl
      have sameManifest : db.store.manifest.log = db'.store.manifest.log := by rw [← taken]
      have saved := log_saveManifest_same outcome disk sameManifest
      have saves := persisted_persistManifestLocked outcome db.store.manifest disk
      have sameClose : (db'.saveManifest outcome db.store.manifest disk).2.close = .stopped := by
        rw [← phase, ← taken]
        rfl
      generalize db'.saveManifest outcome db.store.manifest disk = after
        at saved stepped sameClose
      have flushed : Db.log after.1 { after.2 with close := .flushed } = after.2.log after.1 := by
        simp only [Db.log, sameClose]
        rfl
      cases stepped
      rw [flushed, saved, takenLog]
      exact .closeTakeNone closing stopping (by simp [Db.log, Store.log, empty.1]) saves
    · cases stepped
      have covers : ∀ mem ∈ (db.log disk).store.immutables ++ kept.map MemTable.log,
          ∀ frame ∈ mem.frames,
            frame ∈ (mergeMemTablesForFlush (pendingMems db.store)).log.frames := by
        intro mem member frame held
        rw [pending]
        simp only [MemTable.log, frames_mergeMemTablesForFlush, mem_flatMap]
        simp only [Db.log, Store.log, ← map_append, mem_map] at member
        obtain ⟨source, member, rfl⟩ := member
        exact ⟨source, member, held⟩
      have step : LogStep (db.log disk) (.closeTake outcome) _ :=
        .closeTake _ _ closing stopping (by simp only [Db.log, phase]; rfl)
          (keptCases.imp (fun lost => by rw [lost]; rfl) fun all => by rw [all]; rfl) covers
      have taken : Db.log disk { db with
          store := { db.store with
            immutables := [], mutable := MemTable.new db.store.manifest.activeWalId }
          held := pendingMems db.store
          close := .flushing (FlushTask.start (mergeMemTablesForFlush (pendingMems db.store))) } =
          { (db.log disk).taken ((db.log disk).store.immutables ++ kept.map MemTable.log) with
            closeFlush := some (mergeMemTablesForFlush (pendingMems db.store)).log } := by
        simp only [Db.log, phase, pending, map_append]
        rfl
      exact taken ▸ step

theorem closeWrite_log (stepped : db.closeWrite ok disk = some result) :
    LogStep (db.log disk) (.closeWrite ok) (result.2.log result.1) := by
  simp only [closeWrite] at stepped
  split at stepped
  · rename_i task phase
    split at stepped
    · contradiction
    · rename_i next manifest blobs written
      obtain ⟨sameMem, sameLog⟩ := log_writeNext_mem written
      cases stepped
      have unchanged := log_withManifest disk db manifest blobs sameLog
      cases ok with
      | true =>
        have same : Db.log { disk with blobs } { db with
            store := { db.store with manifest }, close := .flushing next } = db.log disk := by
          rw [← unchanged]
          simp only [Db.log, CloseStage.flush, phase, sameMem]
          rfl
        exact same ▸ .quiet
      | false =>
        have ended : Db.log { disk with blobs } { db with
            store := { db.store with manifest }, close := .flushed } =
              { db.log disk with closeFlush := none } := by
          rw [← unchanged]
          simp only [Db.log, phase]
          rfl
        exact ended ▸ .closeFails
  · contradiction

theorem closeCommit_log (stepped : db.closeCommit outcome disk = some result) :
    LogStep (db.log disk) (.closeCommit outcome) (result.2.log result.1) := by
  simp only [closeCommit] at stepped
  split at stepped
  · rename_i task phase
    split at stepped
    · contradiction
    · have flushing : (db.log disk).closeFlush = some task.mem.log := by
        simp only [Db.log, phase, CloseStage.flush]
      have closing : (db.log disk).closing = true := by simp only [Db.log, phase]; rfl
      have sameClose : (db.saveManifest outcome (task.install db.store) disk).2.close =
          .flushing task := phase
      have sameHeld : (db.saveManifest outcome (task.install db.store) disk).2.held = db.held := rfl
      by_cases ok : outcome = .ok
      · subst ok
        have saved := log_saveManifest_ok (task.install db.store) disk db
        rw [log_install] at saved
        generalize db.saveManifest .ok (task.install db.store) disk = after
          at saved sameClose sameHeld stepped
        cases stepped
        have installed : Db.log after.1 { after.2 with close := .flushed, held := [] } =
            { after.2.log after.1 with closeFlush := none, held := [] } := by
          simp only [Db.log, sameClose]
          rfl
        rw [if_pos rfl, installed, saved]
        exact .closeInstall flushing closing
      · have failed := log_saveManifest_fails ok (task.install db.store) disk db
        generalize db.saveManifest outcome (task.install db.store) disk = after
          at failed sameClose sameHeld stepped
        cases stepped
        have saves := persisted_persistManifestLocked outcome (task.install db.store) disk
        rw [log_install] at saves
        have ended : Db.log after.1 { after.2 with close := .flushed, held := after.2.held } =
            { after.2.log after.1 with closeFlush := none } := by
          simp only [Db.log, sameClose]
          rfl
        rw [if_neg ok, ended, failed]
        exact .closeInstallFails flushing ok saves
  · contradiction

end Db

/-- The simulation: an action that leaves the process open is a step of its log view. -/
theorem World.stepDb_log {world next : World} {after : Db}
    (stepped : world.stepDb db action = some next) (stays : next.db = some after) :
    LogStep (db.log world.disk) action (after.log next.disk) := by
  have viaDb : ∀ {result : Option Db},
      (∀ result', result = some result' →
        LogStep (db.log world.disk) action (result'.log world.disk)) →
      result.map world.withDb = some next → LogStep (db.log world.disk) action (after.log next.disk) := by
    intro result each mapped
    obtain ⟨result', found, rfl⟩ := Option.map_eq_some_iff.mp mapped
    cases stays
    exact each _ found
  have viaDisk : ∀ {result : Option (Disk × Db)},
      (∀ result', result = some result' →
        LogStep (db.log world.disk) action (result'.2.log result'.1)) →
      result.map world.withDisk = some next →
        LogStep (db.log world.disk) action (after.log next.disk) := by
    intro result each mapped
    obtain ⟨result', found, rfl⟩ := Option.map_eq_some_iff.mp mapped
    cases stays
    exact each _ found
  cases action with
  | openDb options => contradiction
  | crash => contradiction
  | submit batch => exact viaDb (fun _ => Db.assignSequence_log world.disk) stepped
  | apply index => exact viaDb (fun _ => Db.applyRequest_log world.disk) stepped
  | drain => exact viaDb (fun _ => Db.drainWriteRequests_log world.disk) stepped
  | openWal ok => exact viaDisk (fun _ => Db.openActiveWal_log) stepped
  | appendWal failAfter => exact viaDisk (fun _ => Db.appendWal_log) stepped
  | syncWal ok => exact viaDisk (fun _ => Db.syncWal_log) stepped
  | finalize =>
    obtain ⟨result, found, rfl⟩ := Option.map_eq_some_iff.mp stepped
    cases stays
    exact Db.finalizeWriteRequests_log world.disk found
  | flushTake => exact viaDb (fun _ => Db.flushTake_log world.disk) stepped
  | flushWrite ok => exact viaDisk (fun _ => Db.flushWrite_log) stepped
  | flushCommit outcome => exact viaDisk (fun _ => Db.flushCommit_log) stepped
  | flushPop => exact viaDb (fun _ => Db.flushPop_log world.disk) stepped
  | compactStart => exact viaDb (fun _ => Db.compactStart_log world.disk) stepped
  | compactWrite ok => exact viaDb (fun _ => Db.compactWrite_log world.disk) stepped
  | compactCommit outcome => exact viaDisk (fun _ => Db.compactCommit_log) stepped
  | gcStart => exact viaDb (fun _ => Db.gcStart_log) stepped
  | gcList => exact viaDb (fun _ => Db.gcList_log) stepped
  | gcWrite ok => exact viaDisk (fun _ => Db.gcWrite_log) stepped
  | gcCommit outcome => exact viaDisk (fun _ => Db.gcCommit_log) stepped
  | gcRemove index => exact viaDisk (fun _ => Db.gcRemove_log) stepped
  | createSnapshot =>
    obtain ⟨result, found, rfl⟩ := Option.map_eq_some_iff.mp stepped
    cases stays
    exact Db.createSnapshot_log world.disk found
  | openBlob snapshot fileId => exact viaDb (fun _ => Db.openBlob_log) stepped
  | closeBegin => exact viaDb (fun _ => Db.closeBegin_log world.disk) stepped
  | closeStop => exact viaDb (fun _ => Db.closeStop_log world.disk) stepped
  | closeTake outcome => exact viaDisk (fun _ => Db.closeTake_log) stepped
  | closeWrite ok => exact viaDisk (fun _ => Db.closeWrite_log) stepped
  | closeCommit outcome => exact viaDisk (fun _ => Db.closeCommit_log) stepped
  | closeFinish =>
    obtain ⟨result, found, rfl⟩ := Option.map_eq_some_iff.mp stepped
    contradiction

end SwStack.EmbeddedDb
