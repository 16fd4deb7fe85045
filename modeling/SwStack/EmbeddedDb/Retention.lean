import SwStack.EmbeddedDb.LogOpen

/-! Log retention. What only a memtable carries must stay in a log file that replay
reads. `close` takes the memtables out of the tiers before it saves them, so a
background flush that commits in between computes its replay start without them. -/
open List hiding after

namespace SwStack.EmbeddedDb

open SwStack.Lib

/-- The memtables with batches, `flushAllSync_`'s included. -/
def Db.memtables (db : Db) : List MemTable := db.store.mutable :: db.store.immutables ++ db.held

/-- The persisted manifest's tables carry the frame, or replay reads the file that
holds it. -/
def Disk.Keeps (disk : Disk) (entry : Nat × Frame) : Prop :=
  match disk.persisted with
  | none => False
  | some manifest => entry.2 ∈ manifest.frames ∨
      manifest.replayFromWalId ≤ entry.1 ∧ entry.2 ∈ (disk.wal entry.1).frames

instance (disk : Disk) (entry : Nat × Frame) : Decidable (disk.Keeps entry) := by
  unfold Disk.Keeps
  cases disk.persisted <;> infer_instance

def World.Retains (world : World) (db : Db) : Prop :=
  ∀ entry ∈ db.walFrames, (∃ mem ∈ db.memtables, entry.2 ∈ mem.frames) → world.disk.Keeps entry

instance (world : World) (db : Db) : Decidable (world.Retains db) :=
  inferInstanceAs (Decidable (∀ entry ∈ db.walFrames,
    (∃ mem ∈ db.memtables, entry.2 ∈ mem.frames) → world.disk.Keeps entry))

/-- The save takes effect: also when `CURRENT` is not rewritten but already names the
file that was. -/
def Disk.Replaces (outcome : PersistOutcome) (manifest : Manifest) (disk : Disk) : Prop :=
  outcome = .ok ∨ outcome = .failCurrent ∧ disk.current = some manifest.manifestId

instance (outcome : PersistOutcome) (manifest : Manifest) (disk : Disk) :
    Decidable (disk.Replaces outcome manifest) :=
  inferInstanceAs (Decidable (_ ∨ _ ∧ _))

/-- A background flush that commits while `close` holds memtables carries the logged
frames of those memtables, unless they are in the active log. -/
def World.FlushKeepsHeld (world : World) : Action → Prop
  | .flushCommit outcome =>
    match world.db with
    | none => True
    | some db =>
      world.disk.Replaces outcome db.store.manifest → ∀ mem ∈ db.held, ∀ entry ∈ db.walFrames,
        entry.2 ∈ mem.frames →
          db.store.manifest.activeWalId ≤ entry.1 ∨ entry.2 ∈ db.store.manifest.frames ∨
            match db.flush with
            | .writing task => entry.2 ∈ task.mem.frames
            | _ => True
  | _ => True

instance (world : World) (action : Action) : Decidable (world.FlushKeepsHeld action) := by
  unfold World.FlushKeepsHeld
  split
  · split
    · infer_instance
    · split <;> infer_instance
  · infer_instance

namespace LogState

/-- A replay from `manifest` reads what the memtables carry. -/
def ReplayReads (state : LogState) (manifest : ManifestLog) : Prop :=
  (∀ mem ∈ state.store.mutable :: state.store.immutables,
    manifest.replayFromWalId ≤ mem.walId) ∧
  ∀ mem ∈ state.held, ∀ walId frame, (walId, frame) ∈ state.walFrames → frame ∈ mem.frames →
    frame ∈ manifest.frames ∨ manifest.replayFromWalId ≤ walId

structure RetentionOk (state : LogState) : Prop where
  manifest : state.ReplayReads state.store.manifest
  persisted : ∀ manifest, state.persisted = some manifest → state.ReplayReads manifest
  stopped : state.stopping = true → state.service = .stopped
  held : state.held = [] ∨ state.stopping = true

/-- What a flush of `mem` has to carry of the memtables `close` holds. -/
def CarriesHeld (state : LogState) (mem : MemLog) : Prop :=
  ∀ part ∈ state.held, ∀ walId frame, (walId, frame) ∈ state.walFrames → frame ∈ part.frames →
    state.store.manifest.activeWalId ≤ walId ∨ frame ∈ state.store.manifest.frames ∨
      frame ∈ mem.frames

namespace ReplayReads

variable {state : LogState} {manifest : ManifestLog}

theorem installed (ids : state.IdsOk) (carries : state.CarriesHeld mem) :
    state.ReplayReads (state.store.installed mem) := by
  constructor
  · intro other member
    exact StoreLog.replayFrom_le_mem member (ids.mems other (mem_append_left _ member)).1
  · intro part member walId frame listed held
    rcases carries part member walId frame listed held with above | carried
    · exact .inr ((StoreLog.replayFrom_le_active ids.manifest.1).trans above)
    · exact .inl (mem_append.mpr carried)

theorem of_noneHeld (empty : state.held = [])
    (reads : ∀ mem ∈ state.store.mutable :: state.store.immutables,
      manifest.replayFromWalId ≤ mem.walId) : state.ReplayReads manifest := by
  refine ⟨reads, ?_⟩
  rw [empty]
  simp

theorem applied (reads : state.ReplayReads manifest) (ids : state.IdsOk) (index : Nat)
    (request : Request) : (state.applied index request).ReplayReads manifest := by
  obtain ⟨mems, held⟩ := reads
  refine ⟨?_, held⟩
  intro mem member
  rcases mem_cons.mp member with rfl | member
  · rw [CoverageOk.walId_applied ids]
    exact mems _ mem_cons_self
  · exact mems mem (mem_cons_of_mem _ member)

theorem rotated (reads : state.ReplayReads manifest) (ids : state.IdsOk) :
    state.rotated.ReplayReads manifest := by
  obtain ⟨mems, held⟩ := reads
  refine ⟨?_, held⟩
  intro mem member
  have mutable := mems _ mem_cons_self
  have active := (ids.mems _ mem_cons_self).2
  have next := ids.manifest.2.1
  have cases : mem = MemLog.new state.store.manifest.nextWalId ∨
      mem ∈ state.store.mutable :: state.store.immutables := by
    simp only [LogState.rotated, StoreLog.rotated, mem_cons, mem_append,
      not_mem_nil, or_false] at member ⊢
    tauto
  rcases cases with rfl | member
  · simp only [MemLog.new]
    omega
  · exact mems mem member

theorem taken (reads : state.ReplayReads manifest) (ids : state.IdsOk) (coverage : state.CoverageOk)
    {held : List MemLog} (old : ∀ mem ∈ held, mem ∈ state.store.mutable :: state.store.immutables) :
    (state.taken held).ReplayReads manifest := by
  obtain ⟨mems, -⟩ := reads
  constructor
  · intro mem member
    rw [mem_singleton.mp member]
    exact (mems _ mem_cons_self).trans (ids.mems _ mem_cons_self).2
  · intro mem member walId frame listed carried
    have guards := coverage.guarded mem (mem_append_left _ (old mem member))
    exact .inr ((mems mem (old mem member)).trans (guards.1 walId frame listed carried).1)

end ReplayReads

namespace RetentionOk

variable {state next : LogState}

theorem saved {manifest : ManifestLog} (ok : state.RetentionOk)
    (reads : after = state.persisted ∨ state.ReplayReads manifest)
    (saves : Saves manifest state.persisted outcome after) :
    ∀ manifest, after = some manifest → state.ReplayReads manifest := by
  rcases reads with same | reads
  · rw [same]
    exact ok.persisted
  · rcases saves.cases with rfl | rfl
    · rintro _ ⟨⟩
      exact reads
    · exact ok.persisted

theorem notStopping (ok : state.RetentionOk) (busy : state.service ≠ .stopped) :
    state.stopping = false ∧ state.held = [] := by
  have stopping : state.stopping ≠ true := fun stopping => busy (ok.stopped stopping)
  exact ⟨Bool.eq_false_of_not_eq_true stopping, ok.held.resolve_right stopping⟩

theorem restage (ok : state.RetentionOk) (busy : state.service ≠ .stopped) (service : ServiceStage) :
    ({ state with service } : LogState).RetentionOk := by
  have running : ¬ state.stopping = true := by
    rw [(ok.notStopping busy).1]
    simp
  exact { ok with stopped := fun stopping => absurd stopping running }

theorem relog (ok : state.RetentionOk) (busy : state.service ≠ .stopped)
    (wals : SortedMap Nat WalFile) (walFrames : List (Nat × Frame)) (activeWalFileId : Nat) :
    { state with wals, walFrames, activeWalFileId }.RetentionOk := by
  have absent := (ok.notStopping busy).2
  exact { ok with
    manifest := .of_noneHeld absent ok.manifest.1
    persisted := fun manifest found => .of_noneHeld absent (ok.persisted manifest found).1 }

theorem installed_step {flushing : Option (MemLog × Bool)} (ok : state.RetentionOk)
    (ids : state.IdsOk)
    (guard : some (state.store.installed mem) = state.persisted ∨ state.CarriesHeld mem) :
    ({ state.installed mem with flushing } : LogState).RetentionOk := by
  have reads : state.ReplayReads (state.store.installed mem) := by
    rcases guard with same | carries
    · exact ok.persisted _ same.symm
    · exact .installed ids carries
  refine { ok with manifest := reads, persisted := ?_ }
  rintro _ ⟨⟩
  exact reads

theorem cleaned_step (ok : state.RetentionOk) (ids : state.IdsOk) (empty : state.held = []) :
    state.cleaned.RetentionOk := by
  refine { ok with manifest := .of_noneHeld empty ?_ }
  intro mem member
  exact StoreLog.replayFrom_le_mem member (ids.mems mem (mem_append_left _ member)).1

theorem taken_step (ok : state.RetentionOk) (whole : state.Ok) (stopping : state.stopping = true)
    {held : List MemLog} (old : ∀ mem ∈ held, mem ∈ state.store.mutable :: state.store.immutables) :
    (state.taken held).RetentionOk :=
  { ok with
    manifest := ok.manifest.taken whole.ids whole.coverage old
    persisted := fun manifest found =>
      (ok.persisted manifest found).taken whole.ids whole.coverage old
    held := .inr stopping }

theorem step (ok : state.RetentionOk) (whole : state.Ok) (stepped : LogStep state action next)
    (guard : ∀ mem outcome, state.flushing = some (mem, false) → action = .flushCommit outcome →
      next.persisted = state.persisted ∨ state.CarriesHeld mem) : next.RetentionOk := by
  cases stepped with
  | quiet => exact ok
  | submit => exact { ok with }
  | refuse => exact { ok with }
  | apply _ _ _ =>
    exact { ok with
      manifest := ok.manifest.applied whole.ids _ _
      persisted := fun manifest found => (ok.persisted manifest found).applied whole.ids _ _ }
  | @applyRotate index request _ _ _ =>
    have ids := whole.ids.applied index request
    exact { ok with
      manifest := (ok.manifest.applied whole.ids index request).rotated ids
      persisted := fun manifest found =>
        ((ok.persisted manifest found).applied whole.ids index request).rotated ids }
  | drain idle _ => exact { ok.restage (by rw [idle]; simp) (.drained _ _) with }
  | openFails drained => exact ok.restage (by rw [drained]; simp) _
  | openSame drained _ => exact ok.restage (by rw [drained]; simp) _
  | openNext drained =>
    have busy : state.service ≠ .stopped := by rw [drained]; simp
    let walId := state.store.manifest.activeWalId
    exact (ok.relog busy (state.wals.insert walId (state.wal walId)) state.walFrames walId).restage
      busy (.opened _ _)
  | @append group target failAfter opened =>
    have busy : state.service ≠ .stopped := by rw [opened]; simp
    let after := state.appended group target failAfter
    exact (ok.relog busy after.wals after.walFrames after.activeWalFileId).restage busy after.service
  | sync appended =>
    have busy : state.service ≠ .stopped := by rw [appended]; simp
    let file : WalFile := { synced := (state.wal state.activeWalFileId).frames, unsynced := [] }
    exact { (ok.relog busy (state.wals.insert state.activeWalFileId file) state.walFrames
      state.activeWalFileId).restage busy (.committed _ _) with }
  | syncFails appended => exact ok.restage (by rw [appended]; simp) _
  | answer committed => exact { ok.restage (by rw [committed]; simp) .idle with }
  | stop failed => exact { ok with stopped := fun _ => rfl }
  | flushTake => exact { ok with }
  | flushEnds => exact { ok with }
  | install flushing _ => exact ok.installed_step whole.ids (guard _ _ flushing rfl)
  | installClean flushing notClosing =>
    refine (ok.installed_step whole.ids (guard _ _ flushing rfl)).cleaned_step
      { whole.ids.installed _ with } ?_
    exact (whole.coverage.notClosing notClosing).1
  | installFails flushing _ saves =>
    have reads := (guard _ _ flushing rfl).imp_right fun carries =>
      ReplayReads.installed whole.ids carries
    exact { ok with persisted := ok.saved reads saves }
  | pop rest _ queued =>
    have fewer : ∀ {manifest : ManifestLog}, state.ReplayReads manifest →
        ∀ mem ∈ state.store.mutable :: rest, manifest.replayFromWalId ≤ mem.walId := by
      intro manifest reads mem member
      apply reads.1
      rw [queued]
      exact (mem_cons.mp member).elim (fun same => same ▸ mem_cons_self)
        fun member => mem_cons_of_mem _ (mem_cons_of_mem _ member)
    exact { ok with
      manifest := ⟨fewer ok.manifest, ok.manifest.2⟩
      persisted := fun manifest found =>
        ⟨fewer (ok.persisted manifest found), (ok.persisted manifest found).2⟩ }
  | save saves => exact { ok with persisted := ok.saved (.inr ok.manifest) saves }
  | closeBegin => exact { ok with }
  | closeStop _ _ _ => exact { ok with stopped := fun _ => rfl, held := .inr rfl }
  | closeTake kept merged _ stopping _ cases _ =>
    refine { ok.taken_step whole stopping ?_ with }
    intro mem member
    rcases mem_append.mp member with member | member
    · exact mem_cons_of_mem _ member
    · rcases cases with rfl | rfl
      · contradiction
      · exact mem_singleton.mp member ▸ mem_cons_self
  | closeTakeNone _ stopping _ saves =>
    have taken := ok.taken_step whole stopping (forall_mem_nil _)
    exact { taken with persisted := taken.saved (.inr taken.manifest) saves }
  | closeFails => exact { ok with }
  | @closeInstall mem _ _ =>
    have reads : { state with held := [] }.ReplayReads (state.store.installed mem) := by
      refine .of_noneHeld rfl ?_
      intro other member
      exact StoreLog.replayFrom_le_mem member
        (whole.ids.mems other (mem_append_left _ member)).1
    refine { manifest := reads, persisted := ?_, stopped := ok.stopped, held := .inl rfl }
    rintro _ ⟨⟩
    exact reads
  | @closeInstallFails mem _ _ closeFlush _ saves =>
    have carries : state.CarriesHeld mem := fun part member walId frame _ held =>
      .inr (.inr (whole.coverage.closeFlush mem closeFlush part member frame held))
    exact { ok with persisted := ok.saved (.inr (.installed whole.ids carries)) saves }

end RetentionOk
end LogState

theorem retention_opened {disk : Disk} {manifest : Manifest} (ids : manifest.log.IdsOk)
    (set : ∀ walId file, disk.wals.find? walId = some file → 0 < walId)
    (persisted : disk.persisted.map Manifest.log = some manifest.log) :
    (openedLog disk manifest).cleaned.RetentionOk := by
  have replays := loadStore_replays ids set
  have empty : (loadStore disk.wals manifest).log.immutables = [] := replays.immutables
  have above := replayFrom_le_loadStore ids set
  have reads : ∀ mem ∈ (openedLog disk manifest).store.mutable ::
      (openedLog disk manifest).store.immutables, manifest.replayFromWalId ≤ mem.walId := by
    intro mem member
    have only : mem = (loadStore disk.wals manifest).log.mutable := by
      simpa only [openedLog, empty, mem_singleton] using member
    exact only ▸ above
  have start : (openedLog disk manifest).RetentionOk := by
    refine { manifest := .of_noneHeld rfl ?_, persisted := ?_
             stopped := by intros; contradiction, held := .inl rfl }
    · have same : (openedLog disk manifest).store.manifest.replayFromWalId =
          manifest.replayFromWalId := (congrArg ManifestLog.replayFromWalId replays.manifest :)
      rw [same]
      exact reads
    · intro other found
      rw [show (openedLog disk manifest).persisted = _ from persisted] at found
      cases found
      exact .of_noneHeld rfl reads
  exact start.cleaned_step (openedLog_ids ids set persisted) rfl

theorem persisted_of_not_replaces {disk : Disk} (stays : ¬ disk.Replaces outcome manifest) :
    (disk.persistManifestLocked outcome manifest).persisted = disk.persisted := by
  cases outcome with
  | ok => exact absurd (.inl rfl) stays
  | failManifest => rfl
  | failCurrent =>
    simp only [Disk.persistManifestLocked, Disk.persisted]
    cases current : disk.current with
    | none => rfl
    | some id =>
      have different : id ≠ manifest.manifestId := fun same =>
        stays (.inr ⟨rfl, same ▸ current⟩)
      simp only [Option.bind_some, SortedMap.find?_insert, if_neg different]

theorem persisted_flushCommit {disk : Disk} {db : Db} {result : Disk × Db}
    (stepped : db.flushCommit outcome disk = some result)
    (stays : ¬ disk.Replaces outcome db.store.manifest) :
    result.1.persisted = disk.persisted := by
  simp only [Db.flushCommit] at stepped
  split at stepped
  · rename_i task _
    split at stepped
    · contradiction
    · have failed : outcome ≠ .ok := fun ok => stays (.inl ok)
      rw [if_neg failed] at stepped
      cases stepped
      exact persisted_of_not_replaces stays
  · contradiction

theorem World.flushKeepsHeld_carries {world next : World} {db after : Db}
    (opened : world.db = some db) (stays : next.db = some after)
    (keeps : world.FlushKeepsHeld action) (stepped : world.stepDb db action = some next)
    (mem : MemLog) (outcome : PersistOutcome)
    (flushing : (db.log world.disk).flushing = some (mem, false))
    (commit : action = .flushCommit outcome) :
    (after.log next.disk).persisted = (db.log world.disk).persisted ∨
      (db.log world.disk).CarriesHeld mem := by
  subst commit
  by_cases replaced : world.disk.Replaces outcome db.store.manifest
  · right
    simp only [FlushKeepsHeld, opened] at keeps
    intro part member walId frame listed held
    obtain ⟨source, inHeld, rfl⟩ := mem_map.mp member
    have carried := keeps replaced source inHeld (walId, frame) listed held
    refine carried.imp_right (Or.imp_right ?_)
    cases stage : db.flush with
    | writing task =>
      simp only [Db.log, stage, FlushStage.log, Option.some.injEq, Prod.mk.injEq, and_true] at flushing
      subst flushing
      exact id
    | idle | running | installed =>
      simp [Db.log, stage, FlushStage.log] at flushing
  · left
    obtain ⟨result, committed, rfl⟩ := Option.map_eq_some_iff.mp stepped
    cases stays
    exact congrArg (Option.map Manifest.log) (persisted_flushCommit committed replaced)

/-- The invariant of runs in which no flush commits past a memtable `close` holds. -/
def World.Retention (world : World) : Prop :=
  world.Ok ∧ ∀ db, world.db = some db → (db.log world.disk).RetentionOk

theorem World.Retention.step {world next : World} (ok : world.Retention)
    (keeps : world.FlushKeepsHeld action) (stepped : world.step action = some next) :
    next.Retention := by
  refine ⟨ok.1.step stepped, ?_⟩
  intro after found
  rcases step_cases stepped with ⟨options, closed, rfl, rfl⟩ | ⟨db, opened, rfl, rfl⟩ |
    ⟨db, opened, rfl, rfl⟩ | ⟨db, after', opened, stays, inside, logged⟩
  · have directory := ok.1
    simp only [World.Ok, closed] at directory
    obtain ⟨sameWals, ids, persisted⟩ := loadManifest_ok directory
    cases found
    rw [World.withDisk, openDb_log]
    exact retention_opened ids (sameWals ▸ directory.wals) persisted
  · contradiction
  · contradiction
  · have whole := ok.1
    simp only [World.Ok, opened] at whole
    rw [stays] at found
    cases found
    exact (ok.2 db opened).step whole logged
      (flushKeepsHeld_carries opened stays keeps inside)

theorem World.retention_initial : World.initial.Retention := by
  refine ⟨World.ok_initial, fun db opened => ?_⟩
  contradiction

/-- In every run whose flush commits carry the memtables `close` holds, no frame that
recovery still needs is out of reach of a replay. -/
theorem retains_of_reaches {world : World} {db : Db}
    (reached : Reaches World.step World.FlushKeepsHeld World.initial world)
    (opened : world.db = some db) : world.Retains db := by
  have ok : world.Retention := reached.invariant World.retention_initial
    fun ok keeps stepped => ok.step keeps stepped
  have whole := ok.1
  simp only [World.Ok, opened] at whole
  have retention := ok.2 db opened
  rintro ⟨walId, frame⟩ listed ⟨mem, member, held⟩
  obtain ⟨saved, persisted, -⟩ := whole.coverage.persisted
  obtain ⟨manifest, found, rfl⟩ := Option.map_eq_some_iff.mp persisted
  have inLog : mem.log ∈ (db.log world.disk).mems := by
    simp only [LogState.mems, Db.log, Store.log, ← map_cons, ← map_append]
    exact mem_map_of_mem member
  obtain ⟨le, present⟩ := (whole.coverage.guarded mem.log inLog).1 walId frame listed held
  have reads := retention.persisted manifest.log persisted
  have needed : frame ∈ manifest.frames ∨ manifest.replayFromWalId ≤ walId := by
    rw [LogState.mems] at inLog
    rcases mem_append.mp inLog with tier | taken
    · exact .inr ((reads.1 mem.log tier).trans le)
    · exact reads.2 mem.log taken walId frame listed held
  rw [Disk.Keeps, found]
  exact needed.imp_right fun above => ⟨above, present⟩

def smallMemTables : Options :=
  { lazyWrite := false, memTableBytes := 100, inlineBlobThresholdBytes := 100 }

/-- One write from its submission to its answer. -/
def writeActions (batch : WriteBatch) : List Action :=
  [.submit batch, .apply 0, .drain, .openWal true, .appendWal none, .syncWal true, .finalize]

def putActions (key : UInt8) : List Action := writeActions [.put [key] [1] ∅]

/-- A flush of the first memtable is under way when `close` begins. -/
def flushedWhileClosing (later : List Action) : List Action :=
  [.openDb smallMemTables] ++ putActions 1 ++ putActions 2 ++ [.flushTake, .flushWrite true] ++
    later ++ [.closeBegin, .closeStop, .closeTake .ok, .flushCommit .ok]

/-- The third and fourth batch fill a second memtable. The flush commits a replay start
past the log of the third, and only `close` still holds that memtable. -/
theorem flush_passes_held_memtable :
    ∃ world db, World.run (flushedWhileClosing (putActions 3 ++ putActions 4)) = some world ∧
      world.db = some db ∧ ¬ world.Retains db :=
  World.exists_of_run (by decide +kernel)

/-- The second memtable is still active, so its log is not passed. -/
def closingRun : List Action := flushedWhileClosing (putActions 3)

def closingWorld : World := (World.run closingRun).getD World.initial

theorem retains_closingWorld :
    closingWorld.Retains (closingWorld.db.get (by decide +kernel)) :=
  retains_of_reaches (Reaches.of_checked (show List.foldlM (fun world action =>
    if world.FlushKeepsHeld action then World.step world action else none) World.initial closingRun =
      some closingWorld by decide +kernel)) (Option.some_get _).symm

end SwStack.EmbeddedDb
