import SwStack.EmbeddedDb.LogCoverage

/-! Opening a directory, and the invariant of whole runs: it holds after every open and
every action keeps it, so it holds in every reachable world. -/
namespace SwStack.EmbeddedDb

open SwStack.Lib List

def StoreLog.replayed (store : StoreLog) (entry : Nat × Frame) : StoreLog :=
  let mem := store.mutable
  let mem := { mem with
    walId := if mem.walId = 0 ∨ entry.1 < mem.walId then entry.1 else mem.walId }
  { store with
    mutable := mem.noteFrame store.manifest.activeWalId entry.2
    lastVisibleSequence := max store.lastVisibleSequence entry.2.sequence }

theorem log_applyBatchLocked (frame : Frame) (store : Store) :
    (applyBatchLocked frame store).log = store.log.applied frame :=
  log_applyBatchLockedMutable frame (store, _)

theorem log_replayFrame (walId : Nat) (store : Store) (frame : Frame) :
    (replayFrame walId store frame).log =
      if frame.sequence ≤ store.manifest.maxSequence then store.log
      else store.log.replayed (walId, frame) := by
  simp only [replayFrame]
  split
  · rfl
  · generalize lowered : ({ store with
      mutable := { store.mutable with
        walId := if store.mutable.walId = 0 ∨ walId < store.mutable.walId then walId
          else store.mutable.walId } } : Store) = start
    have applied := log_applyBatchLocked frame start
    calc Store.log _ = { (applyBatchLocked frame start).log with
            lastVisibleSequence := max (applyBatchLocked frame start).log.lastVisibleSequence
              frame.sequence } := rfl
      _ = _ := by
        rw [applied, ← lowered]
        simp only [StoreLog.applied, StoreLog.replayed, max_assoc, max_self]
        rfl

theorem maxSequence_log {left right : Store} (same : left.log.manifest = right.log.manifest) :
    left.manifest.maxSequence = right.manifest.maxSequence :=
  congrArg ManifestLog.maxSequence same

theorem manifest_foldl_replayed (entries : List (Nat × Frame)) (store : StoreLog) :
    (entries.foldl StoreLog.replayed store).manifest = store.manifest := by
  induction entries generalizing store with
  | nil => rfl
  | cons entry rest ih => rw [foldl_cons, ih]; rfl

theorem log_replayWalFileLocked (entry : Nat × WalFile) (store : Store) :
    (replayWalFileLocked store entry).log =
      ((entry.2.frames.filter fun frame => store.manifest.maxSequence < frame.sequence).map
        fun frame => (entry.1, frame)).foldl StoreLog.replayed store.log := by
  simp only [replayWalFileLocked]
  generalize entry.2.frames = frames
  induction frames generalizing store with
  | nil => rfl
  | cons frame rest ih =>
    have stepped := log_replayFrame entry.1 store frame
    rw [foldl_cons, ih]
    by_cases covered : frame.sequence ≤ store.manifest.maxSequence
    · rw [if_pos covered] at stepped
      have same := maxSequence_log (congrArg StoreLog.manifest stepped)
      have skipped : decide (store.manifest.maxSequence < frame.sequence) = false := by
        simpa using covered
      rw [same, stepped, filter_cons, skipped]
      rfl
    · rw [if_neg covered] at stepped
      have same : (replayFrame entry.1 store frame).manifest.maxSequence =
          store.manifest.maxSequence :=
        maxSequence_log ((congrArg StoreLog.manifest stepped :))
      have kept : decide (store.manifest.maxSequence < frame.sequence) = true := by
        simpa using covered
      rw [same, stepped, filter_cons, kept]
      rfl

theorem log_replayWalLocked (wals : SortedMap Nat WalFile) (store : Store) :
    (replayWalLocked wals store).log =
      (replayedFrames wals store.manifest).foldl StoreLog.replayed store.log := by
  simp only [replayWalLocked, replayedFrames]
  generalize replayedWals wals store.manifest = entries
  induction entries generalizing store with
  | nil => rfl
  | cons entry rest ih =>
    have stepped := log_replayWalFileLocked entry store
    have same : (replayWalFileLocked store entry).manifest.maxSequence =
        store.manifest.maxSequence := by
      apply maxSequence_log
      rw [stepped, manifest_foldl_replayed]
    rw [foldl_cons, ih, flatMap_cons, foldl_append, same, stepped]

/-- What replay leaves: the frames in the order of the log, and a log id no frame is
below. -/
structure StoreLog.Replays (start : StoreLog) (entries : List (Nat × Frame)) (store : StoreLog) :
    Prop where
  manifest : store.manifest = start.manifest
  immutables : store.immutables = start.immutables
  frames : store.mutable.frames = start.mutable.frames ++ entries.map Prod.snd
  walId : 0 < store.mutable.walId ∧ store.mutable.walId ≤ start.mutable.walId
  listed : ∀ entry ∈ entries, store.mutable.walId ≤ entry.1
  source : store.mutable.walId = start.mutable.walId ∨
    ∃ entry ∈ entries, store.mutable.walId = entry.1
  visible : start.lastVisibleSequence ≤ store.lastVisibleSequence ∧
    ∀ entry ∈ entries, entry.2.sequence ≤ store.lastVisibleSequence

theorem StoreLog.replays {start : StoreLog} {entries : List (Nat × Frame)}
    (set : 0 < start.mutable.walId)
    (active : start.mutable.walId ≤ start.manifest.activeWalId)
    (ids : ∀ entry ∈ entries, 0 < entry.1) :
    start.Replays entries (entries.foldl StoreLog.replayed start) := by
  induction entries generalizing start with
  | nil =>
    exact ⟨rfl, rfl, (append_nil _).symm, ⟨set, le_refl _⟩, forall_mem_nil _, .inl rfl,
      le_refl _, forall_mem_nil _⟩
  | cons entry rest ih =>
    obtain ⟨entrySet, restSet⟩ := forall_mem_cons.mp ids
    have lowered : (start.replayed entry).mutable.walId = min start.mutable.walId entry.1 := by
      simp only [StoreLog.replayed, MemLog.noteFrame]
      split <;> split <;> omega
    have rest' := @ih (start.replayed entry) (by rw [lowered]; exact lt_min set entrySet)
      (by rw [lowered]; exact (min_le_left _ _).trans active) restSet
    obtain ⟨positive, le⟩ := rest'.walId
    rw [lowered] at le
    constructor
    · exact rest'.manifest
    · exact rest'.immutables
    · have frames := rest'.frames
      simp only [StoreLog.replayed, MemLog.noteFrame, append_assoc, singleton_append]
        at frames
      exact frames
    · exact ⟨positive, le.trans (min_le_left _ _)⟩
    · exact forall_mem_cons.mpr ⟨le.trans (min_le_right _ _), rest'.listed⟩
    · rcases rest'.source with same | ⟨found, member, same⟩
      · rw [lowered] at same
        rcases min_choice start.mutable.walId entry.1 with chosen | chosen
        · exact .inl (same.trans chosen)
        · exact .inr ⟨entry, mem_cons_self, same.trans chosen⟩
      · exact .inr ⟨found, mem_cons_of_mem _ member, same⟩
    · obtain ⟨start', entries'⟩ := rest'.visible
      have raised : max start.lastVisibleSequence entry.2.sequence ≤
          (rest.foldl StoreLog.replayed (start.replayed entry)).lastVisibleSequence := start'
      exact ⟨(le_max_left _ _).trans raised,
        forall_mem_cons.mpr ⟨(le_max_right _ _).trans raised, entries'⟩⟩

variable {wals : SortedMap Nat WalFile}

theorem mem_replayedFrames {manifest : Manifest} : entry ∈ replayedFrames wals manifest ↔
      manifest.replayFromWalId ≤ entry.1 ∧ entry.2 ∈ (walIn wals entry.1).frames ∧
        manifest.maxSequence < entry.2.sequence := by
  obtain ⟨walId, frame⟩ := entry
  simp only [replayedFrames, replayedWals, mem_flatMap, mem_map, mem_filter,
    decide_eq_true_eq, Bool.not_eq_true', decide_eq_false_iff_not, not_lt, Prod.mk.injEq]
  constructor
  · rintro ⟨⟨other, file⟩, ⟨member, above⟩, found, ⟨held, newer⟩, rfl, rfl⟩
    refine ⟨above, ?_, newer⟩
    rw [walIn, SortedMap.find?_eq_some_iff.mpr member]
    exact held
  · rintro ⟨above, held, newer⟩
    cases found : wals.find? walId with
    | none => simp [walIn, found, WalFile.empty, WalFile.frames] at held
    | some file =>
      rw [walIn, found] at held
      exact ⟨(walId, file), ⟨SortedMap.find?_eq_some_iff.mp found, above⟩, frame, ⟨held, newer⟩,
        rfl, rfl⟩

/-- What a closed or crashed directory keeps true. -/
structure Disk.Ok (disk : Disk) : Prop where
  persisted : ∀ manifest, disk.persisted = some manifest → manifest.log.IdsOk
  wals : ∀ walId file, disk.wals.find? walId = some file → 0 < walId

/-- The log view after `openActiveWal_` and before the first cleanup. -/
def openedLog (disk : Disk) (manifest : Manifest) : LogState :=
  let store := (loadStore disk.wals manifest).log
  let normalized := (normalizeIdsLocked disk.wals (loadStore disk.wals manifest).manifest).log
  { store := { store with manifest := normalized }
    persisted := disk.persisted.map Manifest.log
    wals := disk.wals.insert normalized.activeWalId (disk.wal normalized.activeWalId)
    nextSequence := store.lastVisibleSequence + 1
    lastDurableSequence := store.lastVisibleSequence
    tickets := [], pendingWrites := [], service := .idle
    activeWalFileId := normalized.activeWalId, backgroundWriteError := false
    flushing := none, closing := false, stopping := false, closeFlush := none
    acknowledged := [], walFrames := replayedFrames disk.wals manifest, held := [] }

theorem openDb_log (options : Options) (disk : Disk) :
    (openDb options disk).2.log (openDb options disk).1 =
      (openedLog (loadManifest disk).1 (loadManifest disk).2).cleaned := by
  simp only [openDb, Db.log_compactL0Locked, Db.log_cleanupCoveredWalFilesLocked]
  rfl

variable {disk : Disk}

theorem loadManifest_ok (ok : disk.Ok) :
    (loadManifest disk).1.wals = disk.wals ∧ (loadManifest disk).2.log.IdsOk ∧
      (loadManifest disk).1.persisted.map Manifest.log = some (loadManifest disk).2.log := by
  simp only [loadManifest]
  cases found : disk.persisted with
  | some manifest => exact ⟨rfl, ok.persisted manifest found, by simp only [found]; rfl⟩
  | none =>
    have initial : Manifest.initial.log.IdsOk := ⟨by decide, by decide, by decide⟩
    refine ⟨rfl, initial, ?_⟩
    simp only [Disk.persistManifestLocked, Disk.persisted, Option.bind_some,
      SortedMap.find?_insert_self, Option.map_some]
    rfl

theorem loadStore_replays {manifest : Manifest}
    (ids : manifest.log.IdsOk) (set : ∀ walId file, wals.find? walId = some file → 0 < walId) :
    StoreLog.Replays
      { manifest := manifest.log, mutable := MemLog.new manifest.activeWalId, immutables := []
        lastVisibleSequence := manifest.maxSequence }
      (replayedFrames wals manifest) (loadStore wals manifest).log := by
  generalize started : ({
    manifest, mutable := MemTable.new manifest.activeWalId, immutables := []
    maxKnownPrimaryKey := [], lastVisibleSequence := manifest.maxSequence
    applyGeneration := 0 } : Store) = start
  have startLog : start.log =
      { manifest := manifest.log, mutable := MemLog.new manifest.activeWalId, immutables := []
        lastVisibleSequence := manifest.maxSequence } := by
    rw [← started]
    rfl
  have positive : ∀ entry ∈ replayedFrames wals manifest, 0 < entry.1 := by
    intro entry member
    obtain ⟨-, held, -⟩ := mem_replayedFrames.mp member
    obtain ⟨file, found, -⟩ := mem_walIn.mp held
    exact set entry.1 file found
  have replays := @StoreLog.replays start.log (replayedFrames wals manifest)
    (by rw [startLog]; exact ids.1) (by rw [startLog]; exact le_refl _) positive
  rw [startLog] at replays
  have loaded : (loadStore wals manifest).log =
      (replayedFrames wals (rebuildTableCachesLocked start).manifest).foldl StoreLog.replayed
        (rebuildTableCachesLocked start).log := by
    rw [← log_replayWalLocked, ← started]
    rfl
  rw [loaded, manifest_rebuildTableCachesLocked, log_rebuildTableCachesLocked, startLog, ← started]
  exact replays

theorem le_foldl_min {mems : List MemLog} (above : ∀ mem ∈ mems, bound ≤ mem.walId)
    (start : Nat) (startAbove : bound ≤ start) :
    bound ≤ mems.foldl (fun start mem =>
      if mem.walId ≠ 0 then min start mem.walId else start) start := by
  induction mems generalizing start with
  | nil => exact startAbove
  | cons mem rest ih =>
    obtain ⟨first, rest'⟩ := forall_mem_cons.mp above
    refine ih rest' _ ?_
    show bound ≤ if mem.walId ≠ 0 then min start mem.walId else start
    split
    · exact le_min startAbove first
    · exact startAbove

section

variable {disk : Disk} {manifest : Manifest}

theorem openedLog_active (ids : manifest.log.IdsOk)
    (set : ∀ walId file, disk.wals.find? walId = some file → 0 < walId) :
    (openedLog disk manifest).store.manifest.IdsOk ∧
      manifest.activeWalId ≤ (openedLog disk manifest).store.manifest.activeWalId := by
  have loaded := (loadStore_replays ids set).manifest
  simp only [Store.log, Manifest.log, ManifestLog.mk.injEq] at loaded
  obtain ⟨positive, next, replay⟩ := ids
  simp only [Manifest.log] at positive next replay
  simp only [openedLog, normalizeIdsLocked, Manifest.log, ManifestLog.IdsOk]
  split <;> omega

theorem openedLog_ids (ids : manifest.log.IdsOk)
    (set : ∀ walId file, disk.wals.find? walId = some file → 0 < walId)
    (persisted : disk.persisted.map Manifest.log = some manifest.log) :
    (openedLog disk manifest).IdsOk := by
  have replays := loadStore_replays ids set
  obtain ⟨active, raised⟩ := openedLog_active ids set
  refine { manifest := active, persisted := ?_, file := ⟨active.1, le_refl _⟩, mems := ?_, wals := ?_ }
  · intro other found
    rw [show (openedLog disk manifest).persisted = _ from persisted] at found
    cases found
    exact ids
  · intro mem member
    have only : mem = (loadStore disk.wals manifest).log.mutable := by
      have empty : (loadStore disk.wals manifest).log.immutables = [] := replays.immutables
      simpa only [LogState.mems, openedLog, empty, append_nil, mem_singleton] using member
    rw [only]
    exact ⟨replays.walId.1, replays.walId.2.trans raised⟩
  · intro walId file found
    simp only [openedLog, SortedMap.find?_insert] at found
    split at found
    · rename_i same
      rw [same]
      exact active.1
    · exact set walId file found

theorem wal_openedLog (walId : Nat) : (openedLog disk manifest).wal walId = walIn disk.wals walId := by
  rw [LogState.wal_eq]
  simp only [openedLog, walIn_insert]
  split
  · rename_i same
    rw [same]
    rfl
  · rfl

theorem openedLog_mems (ids : manifest.log.IdsOk)
    (set : ∀ walId file, disk.wals.find? walId = some file → 0 < walId) :
    (openedLog disk manifest).mems = [(loadStore disk.wals manifest).log.mutable] := by
  have empty : (loadStore disk.wals manifest).log.immutables = [] := (loadStore_replays ids set).immutables
  simp only [LogState.mems, openedLog, empty, append_nil]

theorem openedLog_coverage (ids : manifest.log.IdsOk)
    (set : ∀ walId file, disk.wals.find? walId = some file → 0 < walId)
    (persisted : disk.persisted.map Manifest.log = some manifest.log) :
    (openedLog disk manifest).CoverageOk := by
  have replays := loadStore_replays ids set
  have mems := openedLog_mems ids set
  have sameFrames : (openedLog disk manifest).store.manifest.frames = manifest.log.frames :=
    (congrArg ManifestLog.frames replays.manifest :)
  have carried : ∀ walId frame, (walId, frame) ∈ replayedFrames disk.wals manifest →
      frame ∈ (loadStore disk.wals manifest).log.mutable.frames := by
    intro walId frame listed
    rw [replays.frames]
    exact mem_append_right _ (mem_map.mpr ⟨(walId, frame), listed, rfl⟩)
  constructor
  · exact fun _ => ⟨rfl, rfl, rfl⟩
  · intro mem member
    rw [mems, mem_singleton] at member
    subst member
    constructor
    · intro walId frame listed _
      refine ⟨replays.listed (walId, frame) listed, ?_⟩
      rw [wal_openedLog]
      exact (mem_replayedFrames.mp listed).2.1
    · (intros; contradiction)
  · intro _ frame accepted
    rcases accepted with ⟨walId, listed⟩ | ⟨request, member, -⟩
    · right
      refine ⟨_, ?_, carried walId frame listed⟩
      rw [mems]
      exact mem_singleton_self _
    · contradiction
  · (intros; contradiction)
  · (intros; contradiction)
  · exact ⟨manifest.log, persisted, fun frame held => sameFrames ▸ held⟩
  · (intros; contradiction)
  · (intros; contradiction)
  · (intros; contradiction)

theorem replayFrom_le_loadStore (ids : manifest.log.IdsOk)
    (set : ∀ walId file, wals.find? walId = some file → 0 < walId) :
    manifest.replayFromWalId ≤ (loadStore wals manifest).log.mutable.walId := by
  rcases (loadStore_replays ids set).source with same | ⟨entry, listed, same⟩
  · rw [same]
    exact ids.2.2
  · rw [same]
    exact (mem_replayedFrames.mp listed).1

/-- The first cleanup removes every log file replay did not read. -/
theorem openedLog_sequences (ids : manifest.log.IdsOk)
    (set : ∀ walId file, disk.wals.find? walId = some file → 0 < walId) :
    (openedLog disk manifest).cleaned.SequencesOk := by
  have replays := loadStore_replays ids set
  have mems := openedLog_mems ids set
  obtain ⟨active, raised⟩ := openedLog_active ids set
  obtain ⟨fromManifest, fromFrames⟩ := replays.visible
  have ahead : manifest.replayFromWalId ≤ (openedLog disk manifest).store.replayFrom := by
    refine le_foldl_min ?_ _ ?_
    · intro mem member
      have only : mem = (loadStore disk.wals manifest).log.mutable := by
        have empty : (loadStore disk.wals manifest).log.immutables = [] := replays.immutables
        simpa only [openedLog, empty, mem_singleton] using member
      rw [only]
      exact replayFrom_le_loadStore ids set
    · rw [if_neg active.1.ne']
      exact ids.2.2.trans raised
  have logged : ∀ frame, (openedLog disk manifest).cleaned.Logged frame →
      frame.sequence ≤ (loadStore disk.wals manifest).log.lastVisibleSequence := by
    rintro frame (⟨walId, held⟩ | ⟨walId, listed⟩)
    · have inside : frame ∈ ((openedLog disk manifest).wal walId).frames := mem_walIn_filter held
      rw [wal_openedLog] at inside
      obtain ⟨file, found, -⟩ := mem_walIn.mp inside
      have positive := set walId file found
      have above : manifest.replayFromWalId ≤ walId := by
        obtain ⟨_, kept, -⟩ := mem_walIn.mp held
        simp only [LogState.cleaned, SortedMap.find?_filter] at kept
        have kept := (Option.filter_eq_some_iff.mp kept).2
        have replay : manifest.replayFromWalId ≤ manifest.activeWalId := ids.2.2
        have file : (openedLog disk manifest).activeWalFileId =
          (openedLog disk manifest).store.manifest.activeWalId := rfl
        simp only [Bool.not_eq_true', Bool.and_eq_false_iff, decide_eq_false_iff_not, not_not,
          not_lt] at kept
        omega
      rcases Nat.lt_or_ge manifest.maxSequence frame.sequence with newer | covered
      · exact fromFrames (walId, frame) (mem_replayedFrames.mpr ⟨above, inside, newer⟩)
      · exact covered.trans fromManifest
    · exact fromFrames (walId, frame) listed
  constructor
  · exact nodup_nil
  · (intros; contradiction)
  · exact Nat.lt_succ_self _
  · (intros; contradiction)
  · rintro frame ⟨mem, member, held⟩
    rw [show (openedLog disk manifest).cleaned.mems = _ from mems, mem_singleton] at member
    rw [member, replays.frames] at held
    obtain ⟨entry, listed, rfl⟩ := mem_map.mp held
    exact Nat.lt_succ_of_le (fromFrames entry listed)
  · (intros; contradiction)
  · exact fun frame held => Nat.lt_succ_of_le (logged frame held)
  · (intros; contradiction)
  · (intros; contradiction)

end

structure LogState.Ok (state : LogState) : Prop where
  ids : state.IdsOk
  sequences : state.SequencesOk
  coverage : state.CoverageOk

theorem LogState.Ok.step {state next : LogState} (ok : state.Ok)
    (stepped : LogStep state action next) : next.Ok where
  ids := ok.ids.step stepped
  sequences := ok.sequences.step stepped
  coverage := ok.coverage.step ok.ids ok.sequences stepped

theorem openDb_ok (ok : disk.Ok) (options : Options) :
    ((openDb options disk).2.log (openDb options disk).1).Ok := by
  obtain ⟨sameWals, ids, persisted⟩ := loadManifest_ok ok
  have set : ∀ walId file, (loadManifest disk).1.wals.find? walId = some file → 0 < walId := by
    rw [sameWals]
    exact ok.wals
  have opened := openedLog_ids ids set persisted
  rw [openDb_log]
  exact ⟨opened.cleaned, openedLog_sequences ids set,
    (openedLog_coverage ids set persisted).cleaned_step opened rfl⟩

theorem Disk.Ok.of_log {db : Db} (ids : (db.log disk).IdsOk) : disk.Ok where
  persisted manifest found := ids.persisted manifest.log (by simp only [Db.log, found]; rfl)
  wals := ids.wals

theorem Disk.Ok.crash (ok : disk.Ok) : disk.crash.Ok where
  persisted := ok.persisted
  wals walId file found := by
    simp only [Disk.crash, SortedMap.find?_mapValues] at found
    obtain ⟨old, found, -⟩ := Option.map_eq_some_iff.mp found
    exact ok.wals walId old found

namespace World

/-- The log invariant of a world, open or not. -/
def Ok (world : World) : Prop :=
  match world.db with
  | none => world.disk.Ok
  | some db => (db.log world.disk).Ok

theorem ok_initial : initial.Ok where
  persisted manifest found := by contradiction
  wals walId file found := by contradiction

variable {next world : World}

theorem stepDb_ends {db : Db} (stepped : world.stepDb db action = some next)
    (ended : next.db = none) : action = .closeFinish ∧ next = { world with db := none } := by
  cases action with
  | closeFinish =>
    obtain ⟨_, -, rfl⟩ := Option.map_eq_some_iff.mp stepped
    exact ⟨rfl, rfl⟩
  | openDb | crash => contradiction
  | _ =>
    obtain ⟨_, -, rfl⟩ := Option.map_eq_some_iff.mp stepped
    contradiction

/-- A step inside a session keeps the process and is a step of the log machine; the
others open or end a session. -/
theorem step_cases (stepped : world.step action = some next) :
    (∃ options, world.db = none ∧ action = .openDb options ∧
      next = world.withDisk (openDb options world.disk)) ∨
    (∃ db, world.db = some db ∧ action = .crash ∧ next = world.crash) ∨
    (∃ db, world.db = some db ∧ action = .closeFinish ∧ next = { world with db := none }) ∨
    ∃ db after, world.db = some db ∧ next.db = some after ∧ world.stepDb db action = some next ∧
      LogStep (db.log world.disk) action (after.log next.disk) := by
  cases opened : world.db with
  | none =>
    simp only [step, opened] at stepped
    cases action with
    | openDb options =>
      cases stepped
      exact .inl ⟨options, rfl, rfl, rfl⟩
    | _ => contradiction
  | some db =>
    by_cases crashed : action = .crash
    · subst crashed
      simp only [step, opened] at stepped
      cases stepped
      exact .inr (.inl ⟨db, rfl, rfl, rfl⟩)
    · have inside : world.stepDb db action = some next := by
        simpa only [step, opened] using stepped
      right
      right
      cases ended : next.db with
      | some after => exact .inr ⟨db, after, rfl, rfl, inside, stepDb_log inside ended⟩
      | none =>
        obtain ⟨finished, same⟩ := stepDb_ends inside ended
        exact .inl ⟨db, rfl, finished, same⟩

theorem Ok.step (ok : world.Ok) (stepped : world.step action = some next) : next.Ok := by
  rcases step_cases stepped with ⟨options, closed, rfl, rfl⟩ | ⟨db, opened, rfl, rfl⟩ |
    ⟨db, opened, rfl, rfl⟩ | ⟨db, after, opened, stays, -, logged⟩
  · simp only [Ok, closed] at ok
    exact openDb_ok ok options
  · simp only [Ok, opened] at ok
    exact (Disk.Ok.of_log ok.ids).crash
  · simp only [Ok, opened] at ok
    exact Disk.Ok.of_log ok.ids
  · simp only [Ok, opened, stays] at ok ⊢
    exact ok.step logged

end World
end SwStack.EmbeddedDb
