import SwStack.EmbeddedDb.Store

/-! Background work on the tiers: writing a memtable out as level 0 tables, merging
tables, and rewriting live blobs. Each job is split where the source releases its
lock, so other threads run between two steps. -/
namespace SwStack.EmbeddedDb

open SwStack.Lib

/-- `remaining` lists the tables still to write; `none` is the primary table. -/
structure FlushTask where
  mem : MemTable
  remaining : List (Option IndexName)
  written : List Table
  deriving DecidableEq

def FlushTask.start (mem : MemTable) : FlushTask :=
  { mem
    remaining := (if mem.primary.isEmpty then [] else [none]) ++
      (mem.secondary.entries.filter fun entry => !entry.2.isEmpty).map fun entry => some entry.1
    written := [] }

/-- The primary table takes one id, and one more for its blob file when the memtable
brings none and some value is over the threshold. -/
def writePrimaryTable (threshold : Nat) (mem : MemTable) (manifest : Manifest) (blobs : BlobDir) :
    Table × Manifest × BlobDir :=
  let needsFile := mem.primary.entries.any fun entry => externalizes threshold entry.2
  let takesId := mem.blobFileId = 0 && needsFile
  let blobFileId := if takesId then manifest.nextTableId + 1 else mem.blobFileId
  let (blobs, records) := externalizeRecords threshold blobFileId blobs mem.primary
  ({ level := 0, fileId := manifest.nextTableId
     blobFileId := if blobs.hasData blobFileId then blobFileId else 0
     content := .primary records },
   { manifest with nextTableId := manifest.nextTableId + (if takesId then 2 else 1) }, blobs)

def writeIndexTable (indexName : IndexName) (mem : MemTable) (manifest : Manifest) :
    Table × Manifest :=
  ({ level := 0, fileId := manifest.nextTableId, blobFileId := 0
     content := .index indexName ((mem.secondary.find? indexName).getD ∅) },
   { manifest with nextTableId := manifest.nextTableId + 1 })

def FlushTask.writeNext (threshold : Nat) (task : FlushTask) (manifest : Manifest)
    (blobs : BlobDir) : Option (FlushTask × Manifest × BlobDir) :=
  match task.remaining with
  | [] => none
  | none :: remaining =>
    let (table, manifest, blobs) := writePrimaryTable threshold task.mem manifest blobs
    some ({ task with remaining, written := task.written ++ [table] }, manifest, blobs)
  | some indexName :: remaining =>
    let (table, manifest) := writeIndexTable indexName task.mem manifest
    some ({ task with remaining, written := task.written ++ [table] }, manifest, blobs)

/-- The manifest the flush saves. -/
def FlushTask.install (task : FlushTask) (store : Store) : Manifest :=
  { store.manifest with
    maxSequence := max store.manifest.maxSequence task.mem.maxSeq
    tables := store.manifest.tables ++ task.written
    replayFromWalId := replayFrom store
    frames := store.manifest.frames ++ task.mem.frames }

/-- `mergeMemTableInto_`: on equal sequences the later memtable wins. -/
def mergeMemTableInto (target source : MemTable) : MemTable :=
  let later := fun held offered : Nat => decide (held ≤ offered)
  { walId := if source.walId ≠ 0 ∧ (target.walId = 0 ∨ source.walId < target.walId)
      then source.walId else target.walId
    blobFileId := if source.blobFileId ≠ 0 then max target.blobFileId source.blobFileId
      else target.blobFileId
    minSeq := if source.minSeq ≠ 0 ∧ (target.minSeq = 0 ∨ source.minSeq < target.minSeq)
      then source.minSeq else target.minSeq
    maxSeq := max target.maxSeq source.maxSeq
    approximateBytes := target.approximateBytes + source.approximateBytes
    primary := mergeInto later target.primary source.primary
    secondary := source.secondary.entries.foldl (fun merged entry =>
      merged.insert entry.1 (mergeInto later ((merged.find? entry.1).getD ∅) entry.2))
      target.secondary
    frames := target.frames ++ source.frames }

def mergeMemTablesForFlush (mems : List MemTable) : MemTable :=
  mems.foldl mergeMemTableInto (MemTable.new 0)

structure CompactionPlan where
  primaryTables : List Table
  indexTables : List (IndexName × List Table)
  deriving DecidableEq

def isPrimary (table : Table) : Bool := table.primary?.isSome

def hasIndexName (indexName : IndexName) (table : Table) : Bool := (table.index? indexName).isSome

/-- The tables one group merges: all of level 0, and level 1 as well when it is full
or empty. -/
def planGroup (group : List Table) : List Table :=
  let l0 := group.filter fun table => table.level = 0
  let l1 := group.filter fun table => table.level = 1
  if l0.length ≥ 4 ∨ l1.length ≥ 4 then
    let merge := if l1.length ≥ 4 ∨ l1.isEmpty then l0 ++ l1 else l0
    if merge.length < 2 then [] else merge
  else []

def indexNames (tables : List Table) : List IndexName :=
  (SortedMap.ofList (tables.filterMap fun table =>
    match table.content with
    | .primary _ => none
    | .index indexName _ => some (indexName, ()))).keys

/-- The inputs `compactL0Locked` chooses; `none` when there is nothing to merge. -/
def planCompaction (tables : List Table) : Option CompactionPlan :=
  let primaryTables := planGroup (tables.filter isPrimary)
  let indexTables := (indexNames tables).filterMap fun indexName =>
    match planGroup (tables.filter (hasIndexName indexName)) with
    | [] => none
    | merge => some (indexName, merge)
  if primaryTables.isEmpty && indexTables.isEmpty then none else some { primaryTables, indexTables }

def containsFile (tables : List Table) (table : Table) : Bool := tables.any table.sameFile

/-- Tombstones go only when every input was found and no level 1 table of the group
stays outside. -/
def dropsDeleted (inputs group found : List Table) : Bool :=
  found.length = inputs.length && !inputs.isEmpty &&
    (group.filter fun table => table.level = 1).all (containsFile inputs)

def mergePrimary (inputs : List Table) (drop : Bool) : PrimaryMemStore :=
  let latest := mergeNewest (inputs.filterMap Table.primary?)
  if drop then dropDeleted latest else latest

def mergeIndex (indexName : IndexName) (inputs : List Table) (drop : Bool) : SecondaryMemStore :=
  let latest := mergeNewest (inputs.filterMap (Table.index? indexName))
  if drop then dropDeleted latest else latest

/-- `remaining` holds the merged contents still to be written as level 1 tables. -/
structure CompactionJob where
  toRemove : List Table
  remaining : List TableContent
  written : List Table
  deriving DecidableEq

def CompactionPlan.start (plan : CompactionPlan) (tables : List Table) : CompactionJob :=
  let found := plan.primaryTables.filter (containsFile tables)
  let primary := mergePrimary found (dropsDeleted plan.primaryTables (tables.filter isPrimary) found)
  let groups := plan.indexTables.map fun group =>
    let found := group.2.filter (containsFile tables)
    (found, TableContent.index group.1
      (mergeIndex group.1 found (dropsDeleted group.2 (tables.filter (hasIndexName group.1)) found)))
  let contents := (if primary.isEmpty then [] else [TableContent.primary primary]) ++
    (groups.map Prod.snd).filter fun content =>
      match content with
      | .primary records => !records.isEmpty
      | .index _ entries => !entries.isEmpty
  { toRemove := found ++ (groups.map Prod.fst).flatten, remaining := contents, written := [] }

def CompactionJob.writeNext (job : CompactionJob) (manifest : Manifest) :
    Option (CompactionJob × Manifest) :=
  match job.remaining with
  | [] => none
  | content :: remaining =>
    let table := { level := 1, fileId := manifest.nextTableId, blobFileId := 0, content }
    some ({ job with remaining, written := job.written ++ [table] },
      { manifest with nextTableId := manifest.nextTableId + 1 })

/-- `removeTablesLocked_` followed by the new tables. -/
def replaceTables (toRemove added : List Table) (manifest : Manifest) : Manifest :=
  { manifest with
    tables := manifest.tables.filter (fun table => !containsFile toRemove table) ++ added }

/-- Tables oldest first, immutables, mutable; a version replaces only an older one. -/
def mergedPrimary (store : Store) : PrimaryMemStore :=
  mergeNewest (store.manifest.tablesOldestFirst.filterMap Table.primary? ++
    (store.immutables ++ [store.mutable]).map MemTable.primary)

/-- `materializePrimaryLocked`: live records with their resolved values; `none` when a
value cannot be read. -/
def materializePrimaryLocked (blobs : BlobDir) (store : Store) :
    Option (List (Bytes × LiveRecord × Nat × Bytes)) :=
  (mergedPrimary store).entries.foldr (fun entry rows =>
    match entry.2.live with
    | none => rows
    | some live =>
      match rows, resolveValueLocked blobs live.value with
      | some rows, some value => some ((entry.1, live, entry.2.sequence, value) :: rows)
      | _, _ => none) (some [])

structure BlobGcScan where
  rows : List (Bytes × LiveRecord × Nat × Bytes)
  oldPrimaryTables : List Table
  stableSequence : Nat
  stableManifestId : Nat
  deriving DecidableEq

def liveBlobBytes (rows : List (Bytes × LiveRecord × Nat × Bytes)) (fileId : Nat) : Nat :=
  (rows.map fun row =>
    match row.2.1.value with
    | .blob ref => if ref.fileId = fileId then ref.length else 0
    | .inline _ => 0).sum % 2 ^ 64

/-- Some file has no live byte, or at least 30 percent garbage. The arithmetic is on 64
bits, as references may overlap. -/
def hasGarbage (blobs : BlobDir) (rows : List (Bytes × LiveRecord × Nat × Bytes)) : Bool :=
  blobs.names.entries.any fun entry =>
    let fileBytes := (blobs.contents entry.2).length
    let liveBytes := liveBlobBytes rows entry.1
    liveBytes = 0 || (0 < fileBytes &&
      fileBytes * 30 % 2 ^ 64 ≤ (fileBytes + 2 ^ 64 - liveBytes) % 2 ^ 64 * 100 % 2 ^ 64)

def gcRecords (rows : List (Bytes × LiveRecord × Nat × Bytes)) : PrimaryMemStore :=
  SortedMap.ofList (rows.map fun row =>
    (row.1, { sequence := row.2.2.1
              live := some { value := .inline row.2.2.2, secondaryKeys := row.2.1.secondaryKeys } }))

/-- The one table that replaces every primary table, and its blob file (0 for none). -/
def writeGcTable (threshold : Nat) (rows : List (Bytes × LiveRecord × Nat × Bytes))
    (manifest : Manifest) (blobs : BlobDir) : Option Table × Nat × Manifest × BlobDir :=
  if rows.isEmpty then (none, 0, manifest, blobs)
  else
    let needsFile := (gcRecords rows).entries.any fun entry => externalizes threshold entry.2
    let newBlobFileId := if needsFile then manifest.nextTableId + 1 else 0
    let (blobs, records) := externalizeRecords threshold newBlobFileId blobs (gcRecords rows)
    (some { level := 1, fileId := manifest.nextTableId
            blobFileId := if blobs.hasData newBlobFileId then newBlobFileId else 0
            content := .primary records },
     newBlobFileId,
     { manifest with nextTableId := manifest.nextTableId + (if needsFile then 2 else 1) }, blobs)

end SwStack.EmbeddedDb
