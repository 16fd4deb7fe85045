import SwStack.EmbeddedDb.ReadOnly

/-! A failed refresh. What the database shows afterwards is what the directory gives up to its
first defect, and nothing of what it showed before. -/
namespace SwStack.EmbeddedDb

open SwStack.Lib List

/-! The known greatest key only spares lookups. It outlives a reload, so two loads of one
directory may start from different ones. -/

variable {store left right : Store} {key : Bytes}

namespace Store

def tierRecords (store : Store) : List PrimaryMemStore :=
  store.mems.map MemTable.primary ++ store.manifest.primaryTablesNewestFirst

/-- The known greatest key is not below any key of a tier. -/
def KnowsKeys (store : Store) : Prop :=
  ∀ records ∈ store.tierRecords, ∀ key record, records.find? key = some record →
    key ≤ store.maxKnownPrimaryKey

structure SameTiers (left right : Store) : Prop where
  manifest : left.manifest = right.manifest
  mutable : left.mutable = right.mutable
  immutables : left.immutables = right.immutables
  lastVisibleSequence : left.lastVisibleSequence = right.lastVisibleSequence

theorem not_aboveMaxKnown (known : key ≤ store.maxKnownPrimaryKey) :
    store.aboveMaxKnown key = false := by
  have below : ¬store.maxKnownPrimaryKey < key := not_lt.mpr known
  simp only [aboveMaxKnown, below, decide_false, Bool.and_false]

theorem firstHit_append :
    firstHit (tiers ++ others) key = (firstHit tiers key).or (firstHit others key) :=
  findSome?_append

theorem KnowsKeys.hit_le (knows : store.KnowsKeys) (hit : firstHit store.tierRecords key = some record) :
    key ≤ store.maxKnownPrimaryKey := by
  obtain ⟨records, member, found⟩ := exists_of_findSome?_eq_some hit
  exact knows records member key record found

theorem KnowsKeys.spared (knows : store.KnowsKeys) (above : store.aboveMaxKnown key = true) :
    firstHit store.manifest.primaryTablesNewestFirst key = none := by
  refine Option.eq_none_iff_forall_ne_some.mpr fun record hit => ?_
  obtain ⟨records, member, found⟩ := exists_of_findSome?_eq_some hit
  have known := knows records (mem_append_right _ member) key record found
  rw [not_aboveMaxKnown known] at above
  cases above

theorem KnowsKeys.outRecord (knows : store.KnowsKeys) (key : Bytes) :
    (if store.aboveMaxKnown key then none else store.outRecord key) =
        firstHit store.tierRecords key ∧
      store.outRecord key = firstHit store.tierRecords key := by
  cases hit : firstHit store.tierRecords key with
  | none =>
    have parts := hit
    rw [tierRecords, firstHit_append, Option.or_eq_none_iff] at parts
    have missed : store.outRecord key = none := by
      rw [Store.outRecord, parts.1]
      dsimp only
      rw [parts.2, ite_self]
    exact ⟨by rw [missed, ite_self], missed⟩
  | some record =>
    have below := not_aboveMaxKnown (knows.hit_le hit)
    rw [below, if_neg Bool.false_ne_true, and_self, Store.outRecord, below, ← hit, tierRecords,
      firstHit_append]
    cases firstHit (store.mems.map MemTable.primary) key <;> rfl

theorem noteKey_sameTiers (store : Store) (key : Bytes) :
    (store.noteKey key).SameTiers store := by
  rw [noteKey]
  split <;> exact ⟨rfl, rfl, rfl, rfl⟩

theorem le_noteKey (store : Store) (key : Bytes) :
    store.maxKnownPrimaryKey ≤ (store.noteKey key).maxKnownPrimaryKey ∧
      key ≤ (store.noteKey key).maxKnownPrimaryKey := by
  rw [noteKey]
  split
  · rename_i newer
    refine ⟨?_, le_refl key⟩
    cases newer with
    | inl empty =>
      rw [List.isEmpty_iff.mp empty]
      exact not_lt.mp (not_lt_nil _)
    | inr below => exact below.le
  · rename_i older
    exact ⟨le_refl _, not_lt.mp (not_or.mp older).2⟩

theorem SameTiers.tierRecords (same : left.SameTiers right) :
    left.tierRecords = right.tierRecords := by
  rw [Store.tierRecords, Store.tierRecords, mems, mems, same.manifest, same.mutable,
    same.immutables]

theorem SameTiers.trans {first second third : Store} (left : first.SameTiers second)
    (right : second.SameTiers third) : first.SameTiers third :=
  ⟨left.manifest.trans right.manifest, left.mutable.trans right.mutable,
    left.immutables.trans right.immutables,
    left.lastVisibleSequence.trans right.lastVisibleSequence⟩

theorem SameTiers.symm (same : left.SameTiers right) : right.SameTiers left :=
  ⟨same.manifest.symm, same.mutable.symm, same.immutables.symm, same.lastVisibleSequence.symm⟩

end Store

open Store

@[simp] theorem primary_emitSecondaryLocked (deleted : Bool) (key : Bytes) (keys : SecondaryKeys)
    (sequence : Nat) (mem : MemTable) :
    (emitSecondaryLocked deleted key keys sequence mem).primary = mem.primary := by
  simp only [emitSecondaryLocked]
  generalize keys.entries = entries
  induction entries generalizing mem with
  | nil => rfl
  | cons entry rest ih => rw [foldl_cons, ih]

@[simp] theorem primary_noteBlobFile (op : Operation) (mem : MemTable) :
    (op.noteBlobFile mem).primary = mem.primary := by
  cases op <;> rfl

@[simp] theorem primary_reserveBuckets (batch : WriteBatch) (mem : MemTable) :
    (mem.reserveBuckets batch).primary = mem.primary := by
  simp only [MemTable.reserveBuckets]
  generalize (batch.flatMap fun op => op.secondaryKeys.keys) = names
  induction names generalizing mem with
  | nil => rfl
  | cons name rest ih => rw [foldl_cons, ih]

/-- The memtable after an operation that is newer than the version met. -/
def writtenMem (sequence : Nat) (previous : Option PrimaryRecord) (op : Operation)
    (mem : MemTable) : MemTable :=
  let mem := emitSecondaryTombstonesLocked op.primaryKey
    ((previous.map PrimaryRecord.secondaryKeys).getD ∅) sequence mem
  let mem := emitSecondaryUpsertsLocked op.primaryKey op.secondaryKeys sequence
    (op.noteBlobFile mem)
  (mem.putPrimary op.primaryKey (op.record sequence)).addBytes op.memBytes

theorem primary_writtenMem (sequence : Nat) (previous : Option PrimaryRecord) (op : Operation)
    (mem : MemTable) :
    (writtenMem sequence previous op mem).primary =
      offer (fun held offered => decide (held ≤ offered)) mem.primary
        (op.primaryKey, op.record sequence) := by
  simp only [writtenMem, MemTable.addBytes, MemTable.putPrimary, emitSecondaryUpsertsLocked,
    emitSecondaryTombstonesLocked, primary_emitSecondaryLocked, primary_noteBlobFile]

theorem applyOperation_eq (knows : store.KnowsKeys) (sequence : Nat)
    (overlay : WriterOverlay) (op : Operation) :
    (applyOperation sequence (store, overlay) op).1 =
      if ((firstHit store.tierRecords op.primaryKey).map PrimaryRecord.sequence).getD 0 > sequence
      then store
      else
        ({ store with
            mutable := writtenMem sequence (firstHit store.tierRecords op.primaryKey) op
              store.mutable } : Store).noteKey op.primaryKey := by
  simp only [applyOperation, (knows.outRecord op.primaryKey).1]
  split
  · rfl
  · rfl

/-- Two stores that differ at most in the key they know. -/
structure Lockstep (left right : Store) : Prop where
  same : left.SameTiers right
  leftKnows : left.KnowsKeys
  rightKnows : right.KnowsKeys

theorem applyOperation_knowsKeys (knows : store.KnowsKeys) (sequence : Nat)
    (overlay : WriterOverlay) (op : Operation) :
    (applyOperation sequence (store, overlay) op).1.KnowsKeys := by
  rw [applyOperation_eq knows]
  split
  · exact knows
  · intro records member key record found
    rw [(noteKey_sameTiers _ _).tierRecords] at member
    have noted := le_noteKey { store with
      mutable := writtenMem sequence (firstHit store.tierRecords op.primaryKey) op
        store.mutable } op.primaryKey
    rcases mem_cons.mp member with rfl | elsewhere
    · rw [primary_writtenMem, find?_offer] at found
      split at found
      · rename_i here
        rw [here]
        exact noted.2
      · exact (knows store.mutable.primary (mem_cons_self ..) key record found).trans noted.1
    · exact (knows records (mem_cons_of_mem _ elsewhere) key record found).trans noted.1

theorem applyOperation_lockstep (together : Lockstep left right)
    (sequence : Nat) (overlay other : WriterOverlay) (op : Operation) :
    Lockstep (applyOperation sequence (left, overlay) op).1
      (applyOperation sequence (right, other) op).1 := by
  refine ⟨?_, applyOperation_knowsKeys together.leftKnows sequence overlay op,
    applyOperation_knowsKeys together.rightKnows sequence other op⟩
  rw [applyOperation_eq together.leftKnows, applyOperation_eq together.rightKnows,
    together.same.tierRecords, together.same.mutable]
  split
  · exact together.same
  · refine (noteKey_sameTiers _ _).trans (SameTiers.trans ?_ (noteKey_sameTiers _ _).symm)
    exact ⟨together.same.manifest, rfl, together.same.immutables,
      together.same.lastVisibleSequence⟩

theorem Store.KnowsKeys.sameRecords {other : Store} (knows : store.KnowsKeys)
    (known : other.maxKnownPrimaryKey = store.maxKnownPrimaryKey)
    (tiers : other.tierRecords = store.tierRecords) : other.KnowsKeys := by
  intro records member key record found
  rw [tiers] at member
  exact known ▸ knows records member key record found

theorem Lockstep.bookkeeping (together : Lockstep left right)
    (change : MemTable → MemTable) (keeps : ∀ mem, (change mem).primary = mem.primary)
    (advance : Nat → Nat) :
    Lockstep
      { left with
        mutable := change left.mutable
        applyGeneration := advance left.applyGeneration }
      { right with
        mutable := change right.mutable
        applyGeneration := advance right.applyGeneration } := by
  refine ⟨⟨together.same.manifest, congrArg change together.same.mutable,
    together.same.immutables, together.same.lastVisibleSequence⟩, ?_, ?_⟩
  · exact together.leftKnows.sameRecords rfl (congrArg
      (fun primary => (primary :: left.immutables.reverse.map MemTable.primary) ++
        left.manifest.primaryTablesNewestFirst) (keeps left.mutable))
  · exact together.rightKnows.sameRecords rfl (congrArg
      (fun primary => (primary :: right.immutables.reverse.map MemTable.primary) ++
        right.manifest.primaryTablesNewestFirst) (keeps right.mutable))

theorem Lockstep.raiseVisible (together : Lockstep left right) (sequence : Nat) :
    Lockstep { left with lastVisibleSequence := max left.lastVisibleSequence sequence }
      { right with lastVisibleSequence := max right.lastVisibleSequence sequence } :=
  ⟨⟨together.same.manifest, together.same.mutable, together.same.immutables,
      congrArg (fun visible => max visible sequence) together.same.lastVisibleSequence⟩,
    together.leftKnows, together.rightKnows⟩

theorem applyBatchLocked_lockstep (together : Lockstep left right)
    (frame : Frame) : Lockstep (applyBatchLocked frame left) (applyBatchLocked frame right) := by
  have started := together.bookkeeping
    (fun mem => (mem.noteFrame left.manifest.activeWalId frame).reserveBuckets frame.batch)
    (fun mem => primary_reserveBuckets _ _) (· + 1)
  have applied := foldl_rel (l := frame.batch) (f := applyOperation frame.sequence)
    (g := applyOperation frame.sequence) (r := fun first second => Lockstep first.1 second.1)
    (a := (_, WriterOverlay.empty 0)) (b := (_, WriterOverlay.empty 0)) started
    (fun op _ first second held =>
      applyOperation_lockstep held frame.sequence first.2 second.2 op)
  have same := congrArg Manifest.activeWalId together.same.manifest
  rw [applyBatchLocked, applyBatchLocked, applyBatchLockedMutable, applyBatchLockedMutable]
  dsimp only
  rw [← same]
  exact applied.raiseVisible frame.sequence

theorem replayFrame_lockstep (together : Lockstep left right) (walId : Nat)
    (frame : Frame) : Lockstep (replayFrame walId left frame) (replayFrame walId right frame) := by
  have sameMax := congrArg Manifest.maxSequence together.same.manifest
  by_cases old : frame.sequence ≤ left.manifest.maxSequence
  · rw [replayFrame, replayFrame, if_pos old, if_pos (sameMax ▸ old)]
    exact together
  · rw [replayFrame, replayFrame, if_neg old, if_neg (sameMax ▸ old)]
    exact (applyBatchLocked_lockstep (together.bookkeeping (fun mem =>
      { mem with walId := if mem.walId = 0 ∨ walId < mem.walId then walId else mem.walId })
        (fun _ => rfl) id) frame).raiseVisible frame.sequence

theorem replayWalFileLocked_lockstep (together : Lockstep left right) (entry : Nat × WalFile) :
    Lockstep (replayWalFileLocked left entry) (replayWalFileLocked right entry) :=
  foldl_rel together fun frame _ _ _ held => replayFrame_lockstep held entry.1 frame

theorem replay_lockstep (together : Lockstep left right) (entries : List (Nat × WalFile)) :
    Lockstep (entries.foldl replayWalFileLocked left) (entries.foldl replayWalFileLocked right) :=
  foldl_rel together fun entry _ _ _ held => replayWalFileLocked_lockstep held entry

theorem manifest_applyOperation (sequence : Nat) (state : Store × WriterOverlay)
    (op : Operation) : (applyOperation sequence state op).1.manifest = state.1.manifest := by
  simp only [applyOperation]
  generalize (if state.1.aboveMaxKnown op.primaryKey = true then none
    else state.1.outRecord op.primaryKey) = previous
  split
  · rfl
  · exact (noteKey_sameTiers _ _).manifest

theorem manifest_replayFrame (walId : Nat) (store : Store) (frame : Frame) :
    (replayFrame walId store frame).manifest = store.manifest := by
  have folded : ∀ (ops : List Operation) (state : Store × WriterOverlay),
      (ops.foldl (applyOperation frame.sequence) state).1.manifest = state.1.manifest := by
    intro ops
    induction ops with
    | nil => intro state; rfl
    | cons op rest ih => intro state; rw [foldl_cons, ih, manifest_applyOperation]
  rw [replayFrame]
  split
  · rfl
  · exact folded frame.batch _

theorem manifest_replay (entries : List (Nat × WalFile)) (store : Store) :
    (entries.foldl replayWalFileLocked store).manifest = store.manifest := by
  have file (entry : Nat × WalFile) (store : Store) :
      (replayWalFileLocked store entry).manifest = store.manifest := by
    rw [replayWalFileLocked]
    generalize entry.2.frames = frames
    induction frames generalizing store with
    | nil => rfl
    | cons frame rest ih => rw [foldl_cons, ih, manifest_replayFrame]
  induction entries generalizing store with
  | nil => rfl
  | cons entry rest ih => rw [foldl_cons, ih, file]

theorem le_maxUserKey (found : records.find? key = some record) : key ≤ maxUserKey records := by
  have member := SortedMap.find?_eq_some_iff.mp found
  have last := getLast?_eq_some_getLast (ne_nil_of_mem member)
  have greatest := ((SortedMap.getLast?_eq_some_iff records.ordered).mp last).2
  rw [maxUserKey, last]
  exact greatest (key, record) member

theorem foldl_noteKey (tables : List PrimaryMemStore) (store : Store) :
    (tables.foldl (fun store records => store.noteKey (maxUserKey records)) store).SameTiers
        store ∧
      store.maxKnownPrimaryKey ≤ (tables.foldl (fun store records =>
        store.noteKey (maxUserKey records)) store).maxKnownPrimaryKey ∧
      ∀ records ∈ tables, maxUserKey records ≤ (tables.foldl (fun store records =>
        store.noteKey (maxUserKey records)) store).maxKnownPrimaryKey := by
  induction tables generalizing store with
  | nil => exact ⟨⟨rfl, rfl, rfl, rfl⟩, le_refl _, forall_mem_nil _⟩
  | cons first rest ih =>
    obtain ⟨same, above, each⟩ := ih (store.noteKey (maxUserKey first))
    have noted := le_noteKey store (maxUserKey first)
    refine ⟨same.trans (noteKey_sameTiers _ _), noted.1.trans above, ?_⟩
    exact forall_mem_cons.mpr ⟨noted.2.trans above, each⟩

theorem knowsKeys_of_tables (fresh : store.mutable.primary = ∅)
    (none_rotated : store.immutables = [])
    (known : ∀ records ∈ store.manifest.primaryTablesNewestFirst,
      maxUserKey records ≤ store.maxKnownPrimaryKey) : store.KnowsKeys := by
  intro records member key record found
  rw [tierRecords, mems, none_rotated] at member
  rcases mem_cons.mp member with rfl | table
  · rw [fresh] at found
    cases found
  · exact (le_maxUserKey found).trans (known records table)

theorem Store.SameTiers.mergedPrimary (same : left.SameTiers right) :
    mergedPrimary left = mergedPrimary right := by
  rw [EmbeddedDb.mergedPrimary, EmbeddedDb.mergedPrimary, same.manifest, same.mutable,
    same.immutables]

theorem Store.SameTiers.scannedEntries (same : left.SameTiers right) (indexName : IndexName)
    (startKey endKey : Bytes) : scannedEntries left indexName startKey endKey =
      scannedEntries right indexName startKey endKey := by
  have model : buildReadModelLocked left = buildReadModelLocked right := by
    rw [buildReadModelLocked, buildReadModelLocked, same.mergedPrimary, same.lastVisibleSequence]
  rw [EmbeddedDb.scannedEntries, EmbeddedDb.scannedEntries, model]

variable {dir : Directory} {db : ReadOnlyDb}

namespace ReadOnlyDb

variable {db : ReadOnlyDb} {blobs : BlobDir}

theorem snapshotOf_resolveValue (value : StoredValue) :
    db.snapshotOf.resolveValue blobs value = resolveValueLocked blobs value := by
  cases value with
  | inline value => rfl
  | blob ref =>
    rw [SnapshotState.resolveValue, SnapshotState.blobFile, resolveValueLocked]
    rfl

theorem snapshotOf_resolveRecord (record : PrimaryRecord) :
    db.snapshotOf.resolveRecord blobs record = resolveRecord blobs record := by
  rw [SnapshotState.resolveRecord, resolveRecord]
  cases record.live with
  | none => rfl
  | some live =>
    rw [Option.bind_some, SnapshotState.resolveLive, snapshotOf_resolveValue]
    dsimp only
    cases resolveValueLocked blobs live.value <;> rfl

theorem snapshotOf_entry (secondaryKey : Bytes) :
    materializeReadEntry db.snapshotOf blobs secondaryKey = Pieces.entry blobs secondaryKey := by
  funext row
  rw [materializeReadEntry, snapshotOf_resolveValue, Pieces.entry]

theorem snapshotOf_lookupPrimary (key : Bytes) :
    db.snapshotOf.lookupPrimary blobs key =
      match firstHit (db.store.mems.map MemTable.primary) key with
      | some record => resolveRecord blobs record
      | none => db.primaryTableHandlesNewestFirst.findSome? fun records =>
          (records.find? key).bind (resolveRecord blobs) := by
  have tables (records : PrimaryMemStore) : db.snapshotOf.loadPrimaryFromTable blobs key records =
      (records.find? key).bind (resolveRecord blobs) := by
    rw [SnapshotState.loadPrimaryFromTable]
    cases records.find? key with
    | none => rfl
    | some record => exact snapshotOf_resolveRecord record
  have unfolded : db.snapshotOf.lookupPrimary blobs key =
      match firstHit (db.store.mems.map MemTable.primary) key with
      | some record => db.snapshotOf.resolveRecord blobs record
      | none => db.primaryTableHandlesNewestFirst.findSome?
          (db.snapshotOf.loadPrimaryFromTable blobs key) := rfl
  rw [unfolded, ← funext tables]
  cases firstHit (db.store.mems.map MemTable.primary) key with
  | none => rfl
  | some record => exact snapshotOf_resolveRecord record

/-- Reads are determined by the tiers, when the snapshot is of the tables and a lookup finds what
a scan does. -/
theorem shown_of_created {pieces : Pieces} (created : db.createSnapshot = db.snapshotOf)
    (same : db.openStore.SameTiers pieces.tiers)
    (cached : db.primaryTableHandlesNewestFirst = pieces.cached)
    (got : db.store.mems = pieces.tiers.mems →
      ∀ key, db.get blobs key = (pieces.lookup blobs key).map rowOf) :
    db.shown blobs = pieces.shown blobs := by
  have mems : db.store.mems = pieces.tiers.mems := by
    rw [Store.mems, Store.mems, ← same.mutable, ← same.immutables]
    rfl
  have viewing : db.snapshotOf.viewing db.openStore = db.snapshotOf := rfl
  rw [shown, Pieces.shown, created, ← same.mergedPrimary]
  congr 1
  · exact funext (got mems)
  · exact same.lastVisibleSequence
  · funext key
    have looked := @snapshotOf_lookupPrimary db blobs key
    rw [mems, cached] at looked
    exact congrArg (Option.map rowOf) looked
  · funext startKey endKey entries
    have drained := drains_primary db.snapshotOf blobs db.openStore startKey endKey
    rw [viewing, snapshotOf_entry] at drained
    refine propext ⟨fun again => again.unique drained, ?_⟩
    rintro rfl
    exact drained
  · funext indexName startKey endKey entries
    have drained := drains_index db.snapshotOf blobs db.openStore indexName startKey endKey
    rw [viewing, same.scannedEntries] at drained
    simp only [snapshotOf_entry] at drained
    refine propext ⟨fun again => again.unique drained, ?_⟩
    rintro rfl
    exact drained

/-- When no snapshot is kept the known key has to be right. -/
theorem shown_eq {pieces : Pieces} (unset : db.readOnlySnapshotState = none)
    (same : db.openStore.SameTiers pieces.tiers)
    (cached : db.primaryTableHandlesNewestFirst = pieces.cached)
    (spared : ∀ key, db.store.aboveMaxKnown key = true → firstHit pieces.cached key = none) :
    db.shown blobs = pieces.shown blobs := by
  refine shown_of_created (by rw [createSnapshot, unset, Option.getD_none]) same cached
    fun mems key => ?_
  have looked : db.outRecord key =
      firstHit (pieces.tiers.mems.map MemTable.primary ++ pieces.cached) key := by
    rw [firstHit_append, ← mems, outRecord, cached]
    cases firstHit (db.store.mems.map MemTable.primary) key with
    | some record => rfl
    | none =>
      rw [Option.none_or]
      dsimp only
      split
      · rename_i above
        exact (spared key above).symm
      · rfl
  rw [get, unset, Pieces.lookup, ← looked]

/-- A kept snapshot answers lookups as the log does, when there are no tables. -/
theorem shown_kept {pieces : Pieces} (set : db.readOnlySnapshotState = some db.snapshotOf)
    (same : db.openStore.SameTiers pieces.tiers) (empty : db.primaryTableHandlesNewestFirst = [])
    (untabled : pieces.cached = []) : db.shown blobs = pieces.shown blobs := by
  refine shown_of_created (by rw [createSnapshot, set, Option.getD_some]) same
    (empty.trans untabled.symm) fun mems key => ?_
  rw [get, set]
  dsimp only
  rw [snapshotOf_lookupPrimary, empty, mems, Pieces.lookup, untabled, append_nil]
  cases firstHit (pieces.tiers.mems.map MemTable.primary) key <;> rfl

theorem andThen_success (stage : ReadOnlyDb → Status × ReadOnlyDb) (db : ReadOnlyDb) :
    andThen stage (.success, db) = stage db := if_pos rfl

theorem andThen_failed {reached : Status × ReadOnlyDb} (failed : reached.1 ≠ .success)
    (stage : ReadOnlyDb → Status × ReadOnlyDb) : andThen stage reached = reached := if_neg failed

theorem openTables_of_all (all : ∀ table ∈ tables, openTable table = .success) :
    openTables openTable tables = (.success, tables) := by
  induction tables with
  | nil => rfl
  | cons table rest ih =>
    obtain ⟨first, others⟩ := forall_mem_cons.mp all
    rw [openTables, if_pos first, ih others]

theorem openTables_of_not_all (some_fails : ¬∀ table ∈ tables, openTable table = .success) :
    (openTables openTable tables).1 ≠ .success ∧ (openTables openTable tables).2 =
      tables.takeWhile fun table => openTable table = .success := by
  induction tables with
  | nil => exact absurd (forall_mem_nil _) some_fails
  | cons table rest ih =>
    rw [openTables]
    by_cases first : openTable table = .success
    · obtain ⟨failed, opened⟩ := ih fun others =>
        some_fails (forall_mem_cons.mpr ⟨first, others⟩)
      rw [if_pos first, takeWhile_cons, decide_eq_true first, opened]
      exact ⟨failed, rfl⟩
    · rw [if_neg first, takeWhile_cons, decide_eq_false first]
      exact ⟨first, rfl⟩

theorem replayWals_snd (walError : Nat → Option String) (entries : List (Nat × WalFile))
    (store : Store) : (replayWals walError entries store).2 =
      (entries.takeWhile fun entry => (walError entry.1).isNone).foldl replayWalFileLocked
        store := by
  induction entries generalizing store with
  | nil => rfl
  | cons entry rest ih =>
    rw [replayWals, takeWhile_cons]
    cases walError entry.1 with
    | some error => rfl
    | none => exact ih _

theorem replayWals_fst (walError : Nat → Option String) (entries : List (Nat × WalFile))
    (store other : Store) :
    (replayWals walError entries store).1 = (replayWals walError entries other).1 := by
  induction entries generalizing store other with
  | nil => rfl
  | cons entry rest ih =>
    rw [replayWals, replayWals]
    cases walError entry.1 with
    | some error => rfl
    | none => exact ih _ _

/-- The tables are open and the caches are rebuilt. -/
def withTables (manifest : Manifest) (db : ReadOnlyDb) : ReadOnlyDb :=
  rebuildTableCaches
    { db.cleared with
      store := { db.cleared.store with manifest }, tableHandles := manifest.tables }

variable {manifest : Manifest}

theorem loadFromDisk_of_tables (found : dir.current = some (.object manifest))
    (all : ∀ table ∈ manifest.tables, dir.openTable table = .success) (db : ReadOnlyDb) :
    db.loadFromDisk dir =
      andThen rebuildReadOnlySnapshotLocked (replayWalLocked dir (db.withTables manifest)) := by
  rw [loadFromDisk, found]
  dsimp only [loadManifestFile]
  rw [andThen_success, openTablesLocked]
  dsimp only
  rw [openTables_of_all all, if_pos rfl, andThen_success, withTables]

theorem loadFromDisk_of_table_error (found : dir.current = some (.object manifest))
    (some_fails : ¬∀ table ∈ manifest.tables, dir.openTable table = .success)
    (db : ReadOnlyDb) :
    db.loadFromDisk dir =
      ((openTables dir.openTable manifest.tables).1,
        { db.cleared with
          store := { db.cleared.store with manifest }
          tableHandles := manifest.tables.takeWhile fun table =>
            dir.openTable table = .success }) := by
  obtain ⟨failed, opened⟩ := openTables_of_not_all some_fails
  rw [loadFromDisk, found]
  dsimp only [loadManifestFile]
  rw [andThen_success, openTablesLocked]
  dsimp only
  rw [if_neg failed, @andThen_failed (_, _) failed (replayWalLocked dir),
    @andThen_failed (_, _) failed rebuildReadOnlySnapshotLocked, opened]

theorem withTables_manifest (manifest : Manifest) (db : ReadOnlyDb) :
    (db.withTables manifest).store.manifest = manifest :=
  (foldl_noteKey manifest.primaryTablesNewestFirst { db.cleared.store with manifest }).1.manifest

theorem replayWalLocked_snd (dir : Directory)
    (current : db.store.manifest = manifest) : (replayWalLocked dir db).2 =
      { db with
        store := ((replayedWals dir.wals manifest).takeWhile fun entry =>
          (dir.walError entry.1).isNone).foldl replayWalFileLocked
            { db.store with
              mutable := MemTable.new manifest.activeWalId
              lastVisibleSequence := manifest.maxSequence } } := by
  subst current
  rw [replayWalLocked]
  dsimp only
  rw [replayWals_snd]

/-- The store from which the log files are replayed, against the one that a fresh process has. -/
theorem withTables_lockstep (manifest : Manifest) (db : ReadOnlyDb) :
    Lockstep
      { (db.withTables manifest).store with
        mutable := MemTable.new manifest.activeWalId
        lastVisibleSequence := manifest.maxSequence }
      (rebuildTableCachesLocked
        { manifest, mutable := MemTable.new manifest.activeWalId, immutables := []
          maxKnownPrimaryKey := [], lastVisibleSequence := manifest.maxSequence
          applyGeneration := 0 }) := by
  have left := foldl_noteKey manifest.primaryTablesNewestFirst
    { db.cleared.store with manifest }
  have right := foldl_noteKey manifest.primaryTablesNewestFirst
    { manifest, mutable := MemTable.new manifest.activeWalId, immutables := []
      maxKnownPrimaryKey := [], lastVisibleSequence := manifest.maxSequence, applyGeneration := 0 }
  have leftManifest := withTables_manifest manifest db
  refine ⟨⟨leftManifest.trans right.1.manifest.symm, right.1.mutable.symm,
    left.1.immutables.trans right.1.immutables.symm, right.1.lastVisibleSequence.symm⟩, ?_, ?_⟩
  · refine knowsKeys_of_tables rfl left.1.immutables ?_
    rw [leftManifest]
    exact left.2.2
  · refine knowsKeys_of_tables (congrArg MemTable.primary right.1.mutable) right.1.immutables ?_
    have rightManifest : (rebuildTableCachesLocked
        { manifest, mutable := MemTable.new manifest.activeWalId, immutables := []
          maxKnownPrimaryKey := [], lastVisibleSequence := manifest.maxSequence
          applyGeneration := 0 }).manifest = manifest := right.1.manifest
    rw [rightManifest]
    exact right.2.2

theorem shown_of_uncached
    (unset : db.readOnlySnapshotState = none) (cached : db.primaryTableHandlesNewestFirst = [])
    (mutable : db.store.mutable = MemTable.new 0) (immutables : db.store.immutables = [])
    (visible : db.store.lastVisibleSequence = 0) (same : db.openStore.manifest = manifest) :
    db.shown blobs = (Pieces.ofTables manifest).shown blobs :=
  shown_eq unset ⟨same, mutable, immutables, visible⟩ cached fun _ _ => rfl

theorem shown_loadFromDisk_failed (dir : Directory) (db : ReadOnlyDb) (blobs : BlobDir)
    (failed : (db.loadFromDisk dir).1 ≠ .success) :
    (db.loadFromDisk dir).2.shown blobs = dir.pieces.shown blobs := by
  cases current : dir.current with
  | none =>
    rw [loadFromDisk, Directory.pieces, current]
    exact shown_of_uncached rfl rfl rfl rfl rfl rfl
  | some file =>
    cases file with
    | unreadable error =>
      rw [loadFromDisk, Directory.pieces, current]
      exact shown_of_uncached rfl rfl rfl rfl rfl rfl
    | notObject =>
      rw [loadFromDisk, Directory.pieces, current]
      exact shown_of_uncached rfl rfl rfl rfl rfl rfl
    | object manifest =>
      rw [Directory.pieces, current]
      dsimp only
      by_cases all : ∀ table ∈ manifest.tables, dir.openTable table = .success
      · -- a log file cannot be read
        rw [if_pos all]
        rw [loadFromDisk_of_tables current all] at failed ⊢
        have stopped : (replayWalLocked dir (db.withTables manifest)).1 ≠ .success := by
          intro succeeded
          rw [andThen, if_pos succeeded] at failed
          exact failed rfl
        rw [andThen_failed stopped]
        have together := replay_lockstep (withTables_lockstep manifest db)
          ((replayedWals dir.wals manifest).takeWhile fun entry => (dir.walError entry.1).isNone)
        have kept := (manifest_replay ((replayedWals dir.wals manifest).takeWhile fun entry =>
          (dir.walError entry.1).isNone) { (db.withTables manifest).store with
            mutable := MemTable.new manifest.activeWalId
            lastVisibleSequence := manifest.maxSequence }).trans (withTables_manifest manifest db)
        rw [replayWalLocked_snd dir (withTables_manifest manifest db)]
        refine shown_eq rfl ⟨?_, together.same.mutable, together.same.immutables,
          together.same.lastVisibleSequence⟩ rfl ?_
        · refine Eq.trans ?_ together.same.manifest
          exact (congrArg (fun held => { held with tables := manifest.tables }) kept).trans
            kept.symm
        · intro key above
          have missed := together.leftKnows.spared above
          rw [kept] at missed
          exact missed
      · -- a table does not open
        rw [if_neg all, loadFromDisk_of_table_error current all]
        exact shown_of_uncached rfl rfl rfl rfl rfl rfl

end ReadOnlyDb

namespace ReadOnlyDb

theorem replayWalLocked_fst (dir : Directory) (same : db.store.manifest = other.store.manifest) :
    (replayWalLocked dir db).1 = (replayWalLocked dir other).1 := by
  rw [replayWalLocked, replayWalLocked, same]
  exact replayWals_fst _ _ _ _

/-- Whether a refresh succeeds is up to the directory. -/
theorem loadFromDisk_fst (dir : Directory) (db other : ReadOnlyDb) :
    (db.loadFromDisk dir).1 = (other.loadFromDisk dir).1 := by
  cases current : dir.current with
  | none =>
    rw [loadFromDisk, loadFromDisk, current]
  | some file =>
    cases file with
    | unreadable error =>
      rw [loadFromDisk, loadFromDisk, current]
      rfl
    | notObject =>
      rw [loadFromDisk, loadFromDisk, current]
      rfl
    | object manifest =>
      by_cases all : ∀ table ∈ manifest.tables, dir.openTable table = .success
      · have same := replayWalLocked_fst dir
          ((withTables_manifest manifest db).trans (withTables_manifest manifest other).symm)
        rw [loadFromDisk_of_tables current all, loadFromDisk_of_tables current all, andThen,
          andThen, same]
        split
        · rfl
        · exact same
      · rw [loadFromDisk_of_table_error current all, loadFromDisk_of_table_error current all]

theorem shown_afterNotices
    (failed : (db.refresh dir).1 ≠ .success) (shown : db.shown blobs = dir.pieces.shown blobs)
    (notices : List Notice) :
    (db.afterNotices dir notices).shown blobs = dir.pieces.shown blobs := by
  induction notices generalizing db with
  | nil => exact shown
  | cons notice rest ih =>
    rw [afterNotices, foldl_cons]
    by_cases asked : notice.asksRefresh db = true
    · rw [maybeRefreshFromNotifications, if_pos asked]
      refine ih ?_ (shown_loadFromDisk_failed dir db blobs failed)
      rw [refresh, loadFromDisk_fst dir _ db]
      exact failed
    · rw [maybeRefreshFromNotifications, if_neg asked]
      exact ih failed shown

/-- A failed refresh is without effect on reads only when they showed, before it, what the
directory gives up to its first defect. -/
theorem refresh_failed_keeps_iff (dir : Directory) (db : ReadOnlyDb) (blobs : BlobDir)
    (failed : (db.refresh dir).1 ≠ .success) :
    (∀ notices, ((db.refresh dir).2.afterNotices dir notices).shown blobs = db.shown blobs) ↔
      db.shown blobs = dir.pieces.shown blobs := by
  have again : ((db.refresh dir).2.refresh dir).1 ≠ .success := by
    rw [refresh, loadFromDisk_fst dir _ db]
    exact failed
  have shown := shown_afterNotices again (shown_loadFromDisk_failed dir db blobs failed)
  constructor
  · intro kept
    exact (kept []).symm.trans (shown [])
  · intro before notices
    exact (shown notices).trans before.symm

/-- A directory whose log holds one record. -/
def oneRecord : Directory :=
  { current := some (.object Manifest.initial)
    openTable := fun _ => .success
    wals := SortedMap.insert ∅ 1
      { synced := [{ sequence := 1, batch := [.put [1] [7] ∅] }], unsynced := [] }
    walError := fun _ => none }

/-- The same directory while `CURRENT` is missing. -/
def withoutCurrent : Directory := { oneRecord with current := none }

/-- Nothing loaded yet. -/
def unloaded : ReadOnlyDb :=
  { store :=
      { manifest := Manifest.unread, mutable := MemTable.new 0, immutables := []
        maxKnownPrimaryKey := [], lastVisibleSequence := 0, applyGeneration := 0 }
    tableHandles := []
    primaryTableHandlesNewestFirst := []
    readOnlySnapshotState := none }

/-- It is loaded. -/
def loaded : ReadOnlyDb := (unloaded.refresh oneRecord).2

/-- A second log file has appeared that cannot be read. -/
def secondUnreadable : Directory :=
  { oneRecord with
    wals := oneRecord.wals.insert 2 { synced := [], unsynced := [] }
    walError := fun id => if id = 2 then some "read failed" else none }

theorem refresh_failed_keeps_loaded : (loaded.refresh secondUnreadable).1 ≠ .success ∧
    loaded.get BlobDir.empty [1] = some ([7], ∅) ∧
    ∀ notices, ((loaded.refresh secondUnreadable).2.afterNotices secondUnreadable notices).shown
      BlobDir.empty = loaded.shown BlobDir.empty := by
  have failed : (loaded.refresh secondUnreadable).1 ≠ .success := by decide +kernel
  refine ⟨failed, by decide +kernel, ?_⟩
  exact (refresh_failed_keeps_iff secondUnreadable loaded BlobDir.empty failed).mpr
    (shown_kept rfl ⟨rfl, rfl, rfl, rfl⟩ rfl rfl)

theorem refresh_failed_loses_record : ¬∀ (dir : Directory) (db : ReadOnlyDb) (blobs : BlobDir),
    (db.refresh dir).1 ≠ .success → ∀ notices,
      ((db.refresh dir).2.afterNotices dir notices).shown blobs = db.shown blobs := by
  intro always
  have kept := always withoutCurrent loaded BlobDir.empty (by decide) []
  have before : loaded.get BlobDir.empty [1] = some ([7], ∅) := by decide +kernel
  have after : (loaded.refresh withoutCurrent).2.get BlobDir.empty [1] = none := by decide +kernel
  have same : (loaded.refresh withoutCurrent).2.get BlobDir.empty [1] =
      loaded.get BlobDir.empty [1] :=
    congrFun (congrArg Shown.get kept) [1]
  rw [before, after] at same
  cases same

end ReadOnlyDb

end SwStack.EmbeddedDb
