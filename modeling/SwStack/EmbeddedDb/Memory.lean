import SwStack.EmbeddedDb.BatchBuilder
import SwStack.EmbeddedDb.IndexKeys
import SwStack.Lib.Buckets

/-! The memory backend: live records and their index entries, changed operation by operation
once a batch has been checked as a whole. -/
namespace SwStack.EmbeddedDb

open SwStack.Lib SwStack.Types List

structure MemoryRecord where
  sequence : Nat
  value : Bytes
  jsonPayload : Option JsonObject
  secondaryKeys : SecondaryKeys

structure MemoryIndexEntry where
  secondaryKey : Bytes
  primaryKey : Bytes
  deriving DecidableEq

def MemoryIndexEntry.compositeKey (entry : MemoryIndexEntry) : Bytes :=
  encodeIndexCompositeKey entry.secondaryKey entry.primaryKey

abbrev MemoryIndexes := Buckets IndexName Bytes MemoryIndexEntry

structure MemoryState where
  primary : SortedMap Bytes MemoryRecord
  indexes : MemoryIndexes
  indexEntryCount : Nat

def MemoryState.empty : MemoryState := { primary := ∅, indexes := ∅, indexEntryCount := 0 }

inductive MemoryStatus where
  | success
  | notOpen (message : String)
  | invalidArgument (message : String)
  deriving DecidableEq

/-- What a database without files holds. -/
structure MemoryDb where
  opened : Bool
  closing : Bool
  memoryState : Option MemoryState
  nextSequence : Nat
  lastVisibleSequence : Nat
  writeBatchCount : Nat

namespace BatchOperation

def primaryKey : BatchOperation → Bytes
  | .plain operation => operation.primaryKey
  | .json primaryKey _ _ => primaryKey

def secondaryKeys : BatchOperation → SecondaryKeys
  | .plain operation => operation.secondaryKeys
  | .json _ _ secondaryKeys => secondaryKeys

def isErase : BatchOperation → Bool
  | .plain (.erase _) => true
  | _ => false

/-- A put whose value is a reference into a blob file. -/
def isBlobRef : BatchOperation → Bool
  | .plain (.putBlobRef _ _ _) => true
  | _ => false

def value : BatchOperation → Bytes
  | .plain (.put _ value _) => value
  | _ => []

def jsonPayload : BatchOperation → Option JsonObject
  | .json _ jsonPayload _ => some jsonPayload
  | _ => none

end BatchOperation

namespace MemoryState

/-- Erases the entries of one index and takes the number that were there off the count. -/
def eraseEntries (primaryKey : Bytes) (secondaryKeys : List Bytes)
    (bucket : SortedMap Bytes MemoryIndexEntry × Nat) : SortedMap Bytes MemoryIndexEntry × Nat :=
  secondaryKeys.foldl (fun bucket secondaryKey =>
    let compositeKey := encodeIndexCompositeKey secondaryKey primaryKey
    (bucket.1.erase compositeKey, bucket.2 - if bucket.1.contains compositeKey then 1 else 0)) bucket

def eraseIndex (primaryKey : Bytes) (state : MemoryState) (entry : IndexName × List Bytes) :
    MemoryState :=
  match state.indexes.find? entry.1 with
  | none => state
  | some bucket =>
    let erased := eraseEntries primaryKey entry.2 (bucket, state.indexEntryCount)
    { state with
      indexes := if erased.1.isEmpty then state.indexes.erase entry.1
        else state.indexes.insert entry.1 erased.1
      indexEntryCount := erased.2 }

def eraseIndexes (state : MemoryState) (primaryKey : Bytes) (keys : SecondaryKeys) : MemoryState :=
  keys.entries.foldl (eraseIndex primaryKey) state

/-- `emplace` keeps an entry that is there. -/
def insertEntries (primaryKey : Bytes) (secondaryKeys : List Bytes)
    (bucket : SortedMap Bytes MemoryIndexEntry × Nat) : SortedMap Bytes MemoryIndexEntry × Nat :=
  secondaryKeys.foldl (fun bucket secondaryKey =>
    let compositeKey := encodeIndexCompositeKey secondaryKey primaryKey
    if bucket.1.contains compositeKey then bucket
    else (bucket.1.insert compositeKey ⟨secondaryKey, primaryKey⟩, bucket.2 + 1)) bucket

def insertIndex (primaryKey : Bytes) (state : MemoryState) (entry : IndexName × List Bytes) :
    MemoryState :=
  if entry.2.isEmpty then state
  else
    let inserted :=
      insertEntries primaryKey entry.2 (state.indexes.bucket entry.1, state.indexEntryCount)
    { state with
      indexes := state.indexes.insert entry.1 inserted.1
      indexEntryCount := inserted.2 }

def insertIndexes (state : MemoryState) (primaryKey : Bytes) (keys : SecondaryKeys) : MemoryState :=
  keys.entries.foldl (insertIndex primaryKey) state

/-- Takes an old version out with its index entries. -/
def dropOld (state : MemoryState) (primaryKey : Bytes) : MemoryState :=
  match state.primary.find? primaryKey with
  | none => state
  | some old =>
    let erased := state.eraseIndexes primaryKey old.secondaryKeys
    { erased with primary := erased.primary.erase primaryKey }

def apply (sequence : Nat) (state : MemoryState) (operation : BatchOperation) : MemoryState :=
  let state := state.dropOld operation.primaryKey
  if operation.isErase then state
  else
    let record : MemoryRecord :=
      { sequence, value := operation.value, jsonPayload := operation.jsonPayload
        secondaryKeys := operation.secondaryKeys }
    insertIndexes { state with primary := state.primary.insert operation.primaryKey record }
      operation.primaryKey operation.secondaryKeys

end MemoryState

namespace MemoryDb

/-- `open` of a database that is not persistent. -/
def fresh : MemoryDb where
  opened := true
  closing := false
  memoryState := some .empty
  nextSequence := 1
  lastVisibleSequence := 0
  writeBatchCount := 0

def write (db : MemoryDb) (batch : List BatchOperation) : MemoryDb × MemoryStatus :=
  if !db.opened || db.closing then (db, .notOpen "database is not open")
  else match db.memoryState with
  | none => (db, .notOpen "database is not open")
  | some state =>
    if batch.any BatchOperation.isBlobRef then
      (db, .invalidArgument "disk blob references are unavailable in memory mode")
    else if batch.isEmpty then (db, .success)
    else
      ({ db with
          memoryState := some (batch.foldl (MemoryState.apply db.nextSequence) state)
          nextSequence := db.nextSequence + 1
          lastVisibleSequence := db.nextSequence
          writeBatchCount := db.writeBatchCount + 1 }, .success)

def writeAll (db : MemoryDb) (batches : List (List BatchOperation)) : MemoryDb :=
  batches.foldl (fun db batch => (db.write batch).1) db

end MemoryDb

namespace MemoryState

theorem eraseEntries_spec (primaryKey : Bytes) (secondaryKeys : List Bytes)
    (bucket : SortedMap Bytes MemoryIndexEntry) (outside : Nat) :
    let erased := eraseEntries primaryKey secondaryKeys (bucket, bucket.size + outside)
    erased.2 = erased.1.size + outside ∧
    ∀ key, erased.1.find? key =
      if key ∈ secondaryKeys.map fun secondaryKey =>
        encodeIndexCompositeKey secondaryKey primaryKey
      then none else bucket.find? key := by
  induction secondaryKeys generalizing bucket with
  | nil => exact ⟨rfl, fun key => by simp [eraseEntries]⟩
  | cons secondaryKey rest ih =>
    have count : bucket.size + outside - (if bucket.contains
          (encodeIndexCompositeKey secondaryKey primaryKey) then 1 else 0) =
        (bucket.erase (encodeIndexCompositeKey secondaryKey primaryKey)).size + outside := by
      rw [SortedMap.contains]
      cases found : bucket.find? (encodeIndexCompositeKey secondaryKey primaryKey) with
      | none =>
        rw [SortedMap.erase_of_absent found]
        rfl
      | some entry =>
        rw [SortedMap.size_erase found]
        simp only [Option.isSome_some, if_true]
        omega
    obtain ⟨total, lookups⟩ :=
      ih (bucket.erase (encodeIndexCompositeKey secondaryKey primaryKey))
    have step : eraseEntries primaryKey (secondaryKey :: rest) (bucket, bucket.size + outside) =
        eraseEntries primaryKey rest
          (bucket.erase (encodeIndexCompositeKey secondaryKey primaryKey),
            (bucket.erase (encodeIndexCompositeKey secondaryKey primaryKey)).size +
              outside) := by
      rw [← count]
      rfl
    rw [step]
    refine ⟨total, fun key => ?_⟩
    simp only [lookups, SortedMap.find?_erase, map_cons, mem_cons]
    by_cases same : key = encodeIndexCompositeKey secondaryKey primaryKey
    · simp [same]
    · simp [same]

theorem insertEntries_spec (primaryKey : Bytes) (secondaryKeys : List Bytes)
    (bucket : SortedMap Bytes MemoryIndexEntry) (outside : Nat) :
    let inserted := insertEntries primaryKey secondaryKeys (bucket, bucket.size + outside)
    inserted.2 = inserted.1.size + outside ∧
    ∀ key, inserted.1.find? key = (bucket.find? key).or
      ((secondaryKeys.find? fun secondaryKey => decide
        (encodeIndexCompositeKey secondaryKey primaryKey = key)).map
          (⟨·, primaryKey⟩)) := by
  induction secondaryKeys generalizing bucket with
  | nil => exact ⟨rfl, fun key => by simp [insertEntries]⟩
  | cons secondaryKey rest ih =>
    rw [insertEntries, foldl_cons]
    dsimp only
    cases found : bucket.find? (encodeIndexCompositeKey secondaryKey primaryKey) with
    | some entry =>
      have present : bucket.contains
          (encodeIndexCompositeKey secondaryKey primaryKey) = true := by
        rw [SortedMap.contains, found]
        rfl
      rw [present, if_pos rfl]
      obtain ⟨total, lookups⟩ := ih bucket
      refine ⟨total, fun key => (lookups key).trans ?_⟩
      by_cases same : encodeIndexCompositeKey secondaryKey primaryKey = key
      · rw [← same, found]
        rfl
      · rw [find?_cons_of_neg (by simpa using same)]
    | none =>
      have absent : ¬ bucket.contains
          (encodeIndexCompositeKey secondaryKey primaryKey) = true := by
        rw [SortedMap.contains, found]
        exact Bool.false_ne_true
      rw [if_neg absent]
      obtain ⟨total, lookups⟩ := ih (bucket.insert
        (encodeIndexCompositeKey secondaryKey primaryKey) ⟨secondaryKey, primaryKey⟩)
      have size : bucket.size + outside + 1 = (bucket.insert
          (encodeIndexCompositeKey secondaryKey primaryKey) ⟨secondaryKey, primaryKey⟩).size +
            outside := by
        rw [SortedMap.size_insert, SortedMap.erase_of_absent found]
        omega
      rw [size]
      refine ⟨total, fun key => (lookups key).trans ?_⟩
      rw [SortedMap.find?_insert]
      by_cases same : key = encodeIndexCompositeKey secondaryKey primaryKey
      · rw [if_pos same, find?_cons_of_pos (by simpa using same.symm), same, found]
        rfl
      · rw [if_neg same, find?_cons_of_neg (by simpa using Ne.symm same)]

/-- The count is the number of index entries. -/
def Counted (state : MemoryState) : Prop := state.indexEntryCount = state.indexes.rows

def erased (primaryKey : Bytes) (secondaryKeys : List Bytes)
    (bucket : SortedMap Bytes MemoryIndexEntry) : SortedMap Bytes MemoryIndexEntry :=
  (eraseEntries primaryKey secondaryKeys (bucket, 0)).1

def inserted (primaryKey : Bytes) (secondaryKeys : List Bytes)
    (bucket : SortedMap Bytes MemoryIndexEntry) : SortedMap Bytes MemoryIndexEntry :=
  (insertEntries primaryKey secondaryKeys (bucket, 0)).1

theorem eraseEntries_fst (primaryKey : Bytes) (secondaryKeys : List Bytes)
    (bucket : SortedMap Bytes MemoryIndexEntry) (count other : Nat) :
    (eraseEntries primaryKey secondaryKeys (bucket, count)).1 =
      (eraseEntries primaryKey secondaryKeys (bucket, other)).1 := by
  induction secondaryKeys generalizing bucket count other with
  | nil => rfl
  | cons secondaryKey rest ih => exact ih _ _ _

theorem insertEntries_fst (primaryKey : Bytes) (secondaryKeys : List Bytes)
    (bucket : SortedMap Bytes MemoryIndexEntry) (count other : Nat) :
    (insertEntries primaryKey secondaryKeys (bucket, count)).1 =
      (insertEntries primaryKey secondaryKeys (bucket, other)).1 := by
  induction secondaryKeys generalizing bucket count other with
  | nil => rfl
  | cons secondaryKey rest ih =>
    unfold insertEntries at ih ⊢
    rw [foldl_cons, foldl_cons]
    dsimp only
    by_cases present :
        bucket.contains (encodeIndexCompositeKey secondaryKey primaryKey) = true
    · rw [if_pos present, if_pos present]
      exact ih _ _ _
    · rw [if_neg present, if_neg present]
      exact ih _ _ _

theorem find?_erased (primaryKey : Bytes) (secondaryKeys : List Bytes)
    (bucket : SortedMap Bytes MemoryIndexEntry) (key : Bytes) :
    (erased primaryKey secondaryKeys bucket).find? key =
      if key ∈ secondaryKeys.map fun secondaryKey =>
        encodeIndexCompositeKey secondaryKey primaryKey
      then none else bucket.find? key := by
  rw [erased, eraseEntries_fst _ _ _ 0 (bucket.size + 0)]
  exact (eraseEntries_spec primaryKey secondaryKeys bucket 0).2 key

theorem find?_inserted (primaryKey : Bytes) (secondaryKeys : List Bytes)
    (bucket : SortedMap Bytes MemoryIndexEntry) (key : Bytes) :
    (inserted primaryKey secondaryKeys bucket).find? key = (bucket.find? key).or
      ((secondaryKeys.find? fun secondaryKey => decide
        (encodeIndexCompositeKey secondaryKey primaryKey = key)).map
          (⟨·, primaryKey⟩)) := by
  rw [inserted, insertEntries_fst _ _ _ 0 (bucket.size + 0)]
  exact (insertEntries_spec primaryKey secondaryKeys bucket 0).2 key

/-- The state with other indexes, counted. -/
def withIndexes (state : MemoryState) (indexes : MemoryIndexes) : MemoryState :=
  { state with indexes := indexes, indexEntryCount := indexes.rows }

variable {state : MemoryState}

theorem withIndexes_self (counted : state.Counted) : state.withIndexes state.indexes = state := by
  unfold withIndexes
  rw [← counted]

theorem counted_withIndexes (state : MemoryState) (indexes : MemoryIndexes) :
    (state.withIndexes indexes).Counted := rfl

theorem Counted.split (counted : state.Counted) (name : IndexName) : state.indexEntryCount =
      (state.indexes.bucket name).size + Buckets.rows (state.indexes.erase name) :=
  counted.trans (Buckets.rows_eq state.indexes name)

/-- A bucket put back with its own count keeps the sum right. -/
theorem eraseIndex_eq (counted : state.Counted) (primaryKey : Bytes)
    (entry : IndexName × List Bytes) : eraseIndex primaryKey state entry =
      state.withIndexes (Buckets.store state.indexes entry.1
        (erased primaryKey entry.2 (state.indexes.bucket entry.1))) := by
  have total := counted.split entry.1
  unfold eraseIndex
  cases found : state.indexes.find? entry.1 with
  | none =>
    have empty : state.indexes.bucket entry.1 = ∅ := by rw [Buckets.bucket, found]; rfl
    have still : erased primaryKey entry.2 ∅ = ∅ :=
      SortedMap.ext_find? fun key => (find?_erased primaryKey entry.2 ∅ key).trans (by simp)
    rw [empty, still, Buckets.store, if_pos (by rfl), SortedMap.erase_of_absent found]
    exact (withIndexes_self counted).symm
  | some bucket =>
    have inner : state.indexes.bucket entry.1 = bucket := by rw [Buckets.bucket, found]; rfl
    rw [inner] at total ⊢
    have counts := (eraseEntries_spec primaryKey entry.2 bucket
      (Buckets.rows (state.indexes.erase entry.1))).1
    have same : (eraseEntries primaryKey entry.2 (bucket, state.indexEntryCount)).1 =
        erased primaryKey entry.2 bucket := eraseEntries_fst _ _ _ _ _
    rw [← total, same, ← Buckets.rows_store] at counts
    dsimp only
    rw [same, counts]
    rfl

theorem insertIndex_eq (counted : state.Counted)
    (full : Buckets.NoneEmpty state.indexes) (primaryKey : Bytes)
    (entry : IndexName × List Bytes) : insertIndex primaryKey state entry =
      state.withIndexes (Buckets.store state.indexes entry.1
        (inserted primaryKey entry.2 (state.indexes.bucket entry.1))) := by
  have total := counted.split entry.1
  have counts := (insertEntries_spec primaryKey entry.2 (state.indexes.bucket entry.1)
    (Buckets.rows (state.indexes.erase entry.1))).1
  have same : (insertEntries primaryKey entry.2
      (state.indexes.bucket entry.1, state.indexEntryCount)).1 =
        inserted primaryKey entry.2 (state.indexes.bucket entry.1) := insertEntries_fst _ _ _ _ _
  rw [← total, same, ← Buckets.rows_store] at counts
  unfold insertIndex
  split
  · rename_i nothing
    rw [List.isEmpty_iff.mp nothing]
    exact ((congrArg state.withIndexes (Buckets.store_bucket full entry.1)).trans
      (withIndexes_self counted)).symm
  · rename_i something
    have kept : ¬ (inserted primaryKey entry.2 (state.indexes.bucket entry.1)).isEmpty = true := by
      intro empty
      obtain ⟨secondaryKey, rest, first⟩ := exists_cons_of_ne_nil
        (fun lacks => something (List.isEmpty_iff.mpr lacks))
      have lookup := find?_inserted primaryKey entry.2 (state.indexes.bucket entry.1)
        (encodeIndexCompositeKey secondaryKey primaryKey)
      rw [Buckets.eq_empty_of_isEmpty empty, first, find?_cons_of_pos (by simp)] at lookup
      cases held : (state.indexes.bucket entry.1).find?
          (encodeIndexCompositeKey secondaryKey primaryKey) with
      | none => rw [held] at lookup; cases lookup
      | some other => rw [held] at lookup; cases lookup
    dsimp only
    rw [same, counts]
    unfold withIndexes
    rw [Buckets.store, if_neg kept]

theorem eraseIndexes_eq (counted : state.Counted) (primaryKey : Bytes)
    (keys : SecondaryKeys) : state.eraseIndexes primaryKey keys =
      state.withIndexes (Buckets.change (erased primaryKey) keys.entries state.indexes) := by
  unfold eraseIndexes Buckets.change
  generalize keys.entries = entries
  induction entries generalizing state with
  | nil => exact (withIndexes_self counted).symm
  | cons entry rest ih =>
    rw [foldl_cons, foldl_cons, eraseIndex_eq counted]
    exact ih (counted_withIndexes state _)

theorem insertIndexes_eq {state : MemoryState} (counted : state.Counted)
    (full : Buckets.NoneEmpty state.indexes) (primaryKey : Bytes)
    (keys : SecondaryKeys) : state.insertIndexes primaryKey keys =
      state.withIndexes (Buckets.change (inserted primaryKey) keys.entries state.indexes) := by
  unfold insertIndexes Buckets.change
  generalize keys.entries = entries
  induction entries generalizing state with
  | nil => exact (withIndexes_self counted).symm
  | cons entry rest ih =>
    rw [foldl_cons, foldl_cons, insertIndex_eq counted full]
    exact ih (counted_withIndexes state _) (full.store _ _)

end MemoryState
end SwStack.EmbeddedDb
