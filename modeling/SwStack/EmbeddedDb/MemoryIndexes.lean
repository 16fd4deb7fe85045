import SwStack.EmbeddedDb.Memory

/-! The indexes of the memory backend are the projection of the secondary keys of the live
records, as long as no two pairs of keys are written as the same composite key. -/
namespace SwStack.EmbeddedDb

open SwStack.Lib SwStack.Types List

/-- The keys a record lists under an index. -/
def listed (keys : SecondaryKeys) (name : IndexName) : List Bytes := (keys.find? name).getD []

namespace MemoryState

/-- A live record lists the entry. -/
def Lists (state : MemoryState) (name : IndexName) (entry : MemoryIndexEntry) : Prop :=
  ∃ record, state.primary.find? entry.primaryKey = some record ∧
    entry.secondaryKey ∈ listed record.secondaryKeys name

/-- Each index holds the listed entries under their composite keys, no index is empty, and
the count is the number of entries. -/
structure Projects (state : MemoryState) : Prop where
  entries : ∀ name key entry, (state.indexes.bucket name).find? key = some entry ↔
    key = entry.compositeKey ∧ state.Lists name entry
  full : Buckets.NoneEmpty state.indexes
  counted : state.Counted

theorem Projects.empty : Projects .empty where
  entries := by
    intro name key entry
    refine iff_of_false (fun found => by cases found) ?_
    rintro ⟨_, record, found, _⟩
    cases found
  full := .empty
  counted := rfl

end MemoryState

/-- No two of the entries known under an index have the same composite key. -/
def Distinct (known : IndexName → MemoryIndexEntry → Prop) : Prop :=
  ∀ name left right, known name left → known name right →
    left.compositeKey = right.compositeKey → left = right

namespace MemoryState

theorem find?_change_erased (primaryKey : Bytes) (keys : SecondaryKeys) (indexes : MemoryIndexes)
    (name : IndexName) (key : Bytes) :
    ((Buckets.change (erased primaryKey) keys.entries indexes).bucket name).find? key =
      if key ∈ (listed keys name).map fun secondaryKey =>
        encodeIndexCompositeKey secondaryKey primaryKey
      then none else (indexes.bucket name).find? key := by
  rw [Buckets.bucket_change, listed]
  cases keys.find? name with
  | none => simp
  | some secondaryKeys => exact find?_erased primaryKey secondaryKeys _ key

theorem find?_change_inserted (primaryKey : Bytes) (keys : SecondaryKeys)
    (indexes : MemoryIndexes) (name : IndexName) (key : Bytes) :
    ((Buckets.change (inserted primaryKey) keys.entries indexes).bucket name).find? key =
      ((indexes.bucket name).find? key).or (((listed keys name).find? fun secondaryKey => decide
        (encodeIndexCompositeKey secondaryKey primaryKey = key)).map
          (⟨·, primaryKey⟩)) := by
  rw [Buckets.bucket_change, listed]
  cases keys.find? name with
  | none => simp
  | some secondaryKeys => exact find?_inserted primaryKey secondaryKeys _ key

theorem primary_eraseIndexes (state : MemoryState) (primaryKey : Bytes) (keys : SecondaryKeys) :
    (state.eraseIndexes primaryKey keys).primary = state.primary := by
  unfold eraseIndexes
  generalize keys.entries = entries
  induction entries generalizing state with
  | nil => rfl
  | cons entry rest ih =>
    rw [foldl_cons, ih]
    unfold eraseIndex
    split
    · rfl
    · rfl

theorem primary_insertIndexes (state : MemoryState) (primaryKey : Bytes) (keys : SecondaryKeys) :
    (state.insertIndexes primaryKey keys).primary = state.primary := by
  unfold insertIndexes
  generalize keys.entries = entries
  induction entries generalizing state with
  | nil => rfl
  | cons entry rest ih =>
    rw [foldl_cons, ih]
    unfold insertIndex
    split
    · rfl
    · rfl

theorem find?_dropOld (state : MemoryState) (primaryKey other : Bytes) :
    (state.dropOld primaryKey).primary.find? other =
      if other = primaryKey then none else state.primary.find? other := by
  unfold dropOld
  by_cases same : other = primaryKey
  · rw [if_pos same, same]
    cases found : state.primary.find? primaryKey with
    | none => exact found
    | some old =>
      dsimp only
      rw [SortedMap.find?_erase, if_pos rfl]
  · rw [if_neg same]
    cases found : state.primary.find? primaryKey with
    | none => rfl
    | some old =>
      dsimp only
      rw [SortedMap.find?_erase, if_neg same, primary_eraseIndexes]

variable {known : IndexName → MemoryIndexEntry → Prop} {state : MemoryState}

/-- The state of these records and indexes, counted. -/
def counting (primary : SortedMap Bytes MemoryRecord) (indexes : MemoryIndexes) : MemoryState :=
  { primary := primary, indexes := indexes, indexEntryCount := indexes.rows }

theorem dropOld_of_find? (counted : state.Counted)
    (found : state.primary.find? primaryKey = some old) :
    state.dropOld primaryKey = counting (state.primary.erase primaryKey)
      (Buckets.change (erased primaryKey) old.secondaryKeys.entries state.indexes) := by
  unfold MemoryState.dropOld
  rw [found]
  dsimp only
  rw [eraseIndexes_eq counted]
  rfl

/-- Dropping a record drops its entries and no others. -/
theorem Projects.dropOld (projects : state.Projects) (distinct : Distinct known)
    (recorded : ∀ name entry, state.Lists name entry → known name entry) (primaryKey : Bytes) :
    (state.dropOld primaryKey).Projects := by
  cases found : state.primary.find? primaryKey with
  | none =>
    have same : state.dropOld primaryKey = state := by
      unfold MemoryState.dropOld
      rw [found]
    rw [same]
    exact projects
  | some old =>
    rw [dropOld_of_find? projects.counted found]
    refine ⟨fun name key entry => ?_, projects.full.change _, rfl⟩
    have lists : Lists (counting (state.primary.erase primaryKey)
          (Buckets.change (erased primaryKey) old.secondaryKeys.entries state.indexes)) name entry ↔
        entry.primaryKey ≠ primaryKey ∧ state.Lists name entry := by
      unfold Lists counting
      rw [SortedMap.find?_erase]
      by_cases own : entry.primaryKey = primaryKey
      · simp [own]
      · simp [own]
    rw [lists, counting, find?_change_erased]
    constructor
    · intro present
      split at present
      · cases present
      · rename_i kept
        obtain ⟨composite, listing⟩ := (projects.entries name key entry).mp present
        refine ⟨composite, fun own => kept ?_, listing⟩
        obtain ⟨record, held, member⟩ := listing
        rw [own, found] at held
        cases held
        refine mem_map.mpr ⟨entry.secondaryKey, member, ?_⟩
        rw [composite, MemoryIndexEntry.compositeKey, own]
    · rintro ⟨composite, foreign, listing⟩
      rw [if_neg, (projects.entries name key entry).mpr ⟨composite, listing⟩]
      intro member
      obtain ⟨secondaryKey, listedOne, same⟩ := mem_map.mp member
      have own : state.Lists name ⟨secondaryKey, primaryKey⟩ := ⟨old, found, listedOne⟩
      have equal := distinct name _ _ (recorded name _ own) (recorded name entry listing)
        (same.trans composite)
      exact foreign (congrArg MemoryIndexEntry.primaryKey equal).symm

/-- Putting a record that is not there adds its entries and no others. -/
theorem Projects.insert (projects : state.Projects) (distinct : Distinct known)
    (recorded : ∀ name entry, state.Lists name entry → known name entry)
    (absent : state.primary.find? primaryKey = none) (record : MemoryRecord)
    (written : ∀ name, ∀ secondaryKey ∈ listed record.secondaryKeys name,
      known name ⟨secondaryKey, primaryKey⟩) :
    (insertIndexes { state with primary := state.primary.insert primaryKey record } primaryKey
      record.secondaryKeys).Projects := by
  rw [@insertIndexes_eq { state with primary := state.primary.insert primaryKey record }
    projects.counted projects.full primaryKey record.secondaryKeys]
  refine ⟨fun name key entry => ?_, projects.full.change _, rfl⟩
  have lists : Lists (withIndexes { state with primary := state.primary.insert primaryKey record }
        (Buckets.change (inserted primaryKey) record.secondaryKeys.entries state.indexes))
        name entry ↔
      (entry.primaryKey = primaryKey ∧ entry.secondaryKey ∈ listed record.secondaryKeys name) ∨
      (entry.primaryKey ≠ primaryKey ∧ state.Lists name entry) := by
    unfold Lists withIndexes
    rw [SortedMap.find?_insert]
    by_cases own : entry.primaryKey = primaryKey
    · simp [own]
    · simp [own]
  have foreign : state.Lists name entry → entry.primaryKey ≠ primaryKey := by
    rintro ⟨other, held, _⟩ own
    rw [own, absent] at held
    cases held
  rw [lists, withIndexes, find?_change_inserted]
  constructor
  · intro present
    rcases Option.or_eq_some_iff.mp present with old | ⟨_, new⟩
    · obtain ⟨composite, listing⟩ := (projects.entries name key entry).mp old
      exact ⟨composite, .inr ⟨foreign listing, listing⟩⟩
    · obtain ⟨secondaryKey, first, same⟩ := Option.map_eq_some_iff.mp new
      have member := mem_of_find?_eq_some first
      have passed := find?_some first
      rw [decide_eq_true_eq] at passed
      rw [← same]
      exact ⟨passed.symm, .inl ⟨rfl, member⟩⟩
  · rintro ⟨composite, ⟨own, member⟩ | ⟨_, listing⟩⟩
    · have entryKnown : known name entry := by
        have := written name entry.secondaryKey member
        rwa [← own] at this
      refine Option.or_eq_some_iff.mpr (.inr ⟨?_, ?_⟩)
      · -- an entry under this key would be of another record, and be this one
        cases held : (state.indexes.bucket name).find? key with
        | none => rfl
        | some other =>
          obtain ⟨same, listing⟩ := (projects.entries name key other).mp held
          have equal := distinct name _ _ (recorded name other listing) entryKnown
            (same.symm.trans composite)
          obtain ⟨_, present, _⟩ := listing
          rw [equal, own, absent] at present
          cases present
      · cases first : (listed record.secondaryKeys name).find? fun secondaryKey =>
            decide (encodeIndexCompositeKey secondaryKey primaryKey = key) with
        | none =>
          have never := find?_eq_none.mp first entry.secondaryKey member
          rw [composite, MemoryIndexEntry.compositeKey, own, decide_eq_true_eq] at never
          exact absurd rfl never
        | some secondaryKey =>
          have listedOne := mem_of_find?_eq_some first
          have same := find?_some first
          rw [decide_eq_true_eq] at same
          have equal := distinct name ⟨secondaryKey, primaryKey⟩ entry
            (written name secondaryKey listedOne) entryKnown (same.trans composite)
          exact congrArg some equal
    · exact Option.or_eq_some_iff.mpr
        (.inl ((projects.entries name key entry).mpr ⟨composite, listing⟩))

end MemoryState

def liveKeys (operations : List BatchOperation) : SortedMap Bytes SecondaryKeys :=
  operations.foldl (fun live operation =>
    if operation.isErase then live.erase operation.primaryKey
    else live.insert operation.primaryKey operation.secondaryKeys) ∅

def LiveEntry (operations : List BatchOperation) (name : IndexName) (entry : MemoryIndexEntry) :
    Prop :=
  ∃ keys, (liveKeys operations).find? entry.primaryKey = some keys ∧
    entry.secondaryKey ∈ listed keys name

/-- The operations of the batches that are not rejected. -/
def writtenOperations (batches : List (List BatchOperation)) : List BatchOperation :=
  (batches.filter fun batch => !batch.any BatchOperation.isBlobRef).flatten

theorem find?_liveKeys_concat (front : List BatchOperation) (operation : BatchOperation)
    (primaryKey : Bytes) : (liveKeys (front ++ [operation])).find? primaryKey =
      if primaryKey = operation.primaryKey then
        if operation.isErase then none else some operation.secondaryKeys
      else (liveKeys front).find? primaryKey := by
  unfold liveKeys
  rw [foldl_append, foldl_cons, foldl_nil]
  by_cases erases : operation.isErase = true
  · rw [if_pos erases, if_pos erases, SortedMap.find?_erase]
    by_cases same : primaryKey = operation.primaryKey
    · rw [if_pos same, if_pos same]
    · rw [if_neg same, if_neg same]
  · rw [if_neg erases, if_neg erases, SortedMap.find?_insert]
    by_cases same : primaryKey = operation.primaryKey
    · rw [if_pos same, if_pos same]
    · rw [if_neg same, if_neg same]

namespace MemoryState

/-- The records are the live ones of the operations so far. -/
def Agrees (state : MemoryState) (front : List BatchOperation) : Prop :=
  ∀ primaryKey, (state.primary.find? primaryKey).map MemoryRecord.secondaryKeys =
    (liveKeys front).find? primaryKey

variable {state : MemoryState} {front : List BatchOperation}

theorem Agrees.lists_iff (agrees : state.Agrees front) (name : IndexName)
    (entry : MemoryIndexEntry) : state.Lists name entry ↔ LiveEntry front name entry := by
  unfold Lists LiveEntry
  rw [← agrees entry.primaryKey]
  cases state.primary.find? entry.primaryKey with
  | none => simp
  | some record => simp

theorem Agrees.apply (agrees : state.Agrees front) (sequence : Nat) (operation : BatchOperation) :
    (state.apply sequence operation).Agrees (front ++ [operation]) := by
  intro primaryKey
  rw [find?_liveKeys_concat]
  unfold MemoryState.apply
  dsimp only
  by_cases erases : operation.isErase = true
  · rw [if_pos erases, if_pos erases, find?_dropOld]
    by_cases own : primaryKey = operation.primaryKey
    · rw [if_pos own, if_pos own]
      rfl
    · rw [if_neg own, if_neg own, agrees]
  · rw [if_neg erases, if_neg erases, primary_insertIndexes, SortedMap.find?_insert]
    by_cases own : primaryKey = operation.primaryKey
    · rw [if_pos own, if_pos own]
      rfl
    · rw [if_neg own, if_neg own, find?_dropOld, if_neg own, agrees]

/-- One operation keeps the indexes in step with the records. -/
theorem Projects.apply (projects : state.Projects) (agrees : state.Agrees front)
    (sequence : Nat) (operation : BatchOperation) (before : Distinct (LiveEntry front))
    (after : Distinct (LiveEntry (front ++ [operation]))) :
    (state.apply sequence operation).Projects := by
  have dropped := projects.dropOld before
    (fun name entry => (agrees.lists_iff name entry).mp) operation.primaryKey
  have absent : (state.dropOld operation.primaryKey).primary.find? operation.primaryKey = none := by
    rw [find?_dropOld, if_pos rfl]
  unfold MemoryState.apply
  dsimp only
  by_cases erases : operation.isErase = true
  · rw [if_pos erases]
    exact dropped
  · rw [if_neg erases]
    have recorded : ∀ name entry, (state.dropOld operation.primaryKey).Lists name entry →
        LiveEntry (front ++ [operation]) name entry := by
      rintro name entry ⟨record, held, member⟩
      have foreign : entry.primaryKey ≠ operation.primaryKey := by
        intro own
        rw [own, absent] at held
        cases held
      rw [find?_dropOld, if_neg foreign] at held
      refine ⟨record.secondaryKeys, ?_, member⟩
      rw [find?_liveKeys_concat, if_neg foreign, ← agrees, held]
      rfl
    refine dropped.insert after recorded absent _ fun name secondaryKey member => ?_
    refine ⟨operation.secondaryKeys, ?_, member⟩
    rw [find?_liveKeys_concat, if_pos rfl, if_neg erases]

theorem Agrees.foldl (agrees : state.Agrees front) (sequence : Nat)
    (operations : List BatchOperation) :
    (operations.foldl (MemoryState.apply sequence) state).Agrees (front ++ operations) := by
  induction operations generalizing state front with
  | nil => rwa [append_nil]
  | cons operation rest ih =>
    have onward := ih (agrees.apply sequence operation)
    rwa [append_assoc, singleton_append] at onward

theorem Projects.foldl (projects : state.Projects) (agrees : state.Agrees front)
    (sequence : Nat) (operations : List BatchOperation)
    (distinct : ∀ count, Distinct (LiveEntry (front ++ operations.take count))) :
    (operations.foldl (MemoryState.apply sequence) state).Projects := by
  induction operations generalizing state front with
  | nil => exact projects
  | cons operation rest ih =>
    have before := distinct 0
    have after := distinct 1
    rw [take_zero, append_nil] at before
    rw [take_succ_cons, take_zero] at after
    refine ih (projects.apply agrees sequence operation before after)
      (agrees.apply sequence operation) fun count => ?_
    have := distinct (count + 1)
    rwa [take_succ_cons, ← singleton_append, ← append_assoc] at this

end MemoryState

namespace MemoryDb

theorem write_rejected (db : MemoryDb) {batch : List BatchOperation}
    (carries : batch.any BatchOperation.isBlobRef = true) :
    (db.write batch).1 = db ∧ (db.write batch).2 ≠ .success := by
  unfold write
  split
  · exact ⟨rfl, fun same => by cases same⟩
  · split
    · exact ⟨rfl, fun same => by cases same⟩
    · exact ⟨rfl, fun same => by cases same⟩

/-- An open database whose records are the live ones of the operations written so far. -/
structure Running (db : MemoryDb) (front : List BatchOperation) (state : MemoryState) : Prop where
  opened : db.opened = true
  open_still : db.closing = false
  held : db.memoryState = some state
  agrees : state.Agrees front

theorem Running.fresh : Running fresh [] .empty := ⟨rfl, rfl, rfl, fun _ => rfl⟩

/-- A batch is applied operation by operation, or changes nothing. -/
theorem Running.write {db : MemoryDb} {front : List BatchOperation} {state : MemoryState}
    (running : db.Running front state) (batch : List BatchOperation) :
    (db.write batch).1.Running (front ++ writtenOperations [batch])
      ((writtenOperations [batch]).foldl (MemoryState.apply db.nextSequence) state) := by
  by_cases carries : batch.any BatchOperation.isBlobRef = true
  · have nothing : writtenOperations [batch] = [] := by simp [writtenOperations, carries]
    rw [(write_rejected db carries).1, nothing, append_nil]
    exact running
  · have written : writtenOperations [batch] = batch := by simp [writtenOperations, carries]
    rw [written]
    unfold MemoryDb.write
    rw [running.opened, running.open_still, running.held]
    dsimp only
    rw [if_neg (by decide), if_neg carries]
    split
    · rename_i nothing
      rw [List.isEmpty_iff.mp nothing, append_nil]
      exact running
    · exact ⟨rfl, rfl, rfl, running.agrees.foldl db.nextSequence batch⟩

theorem writtenOperations_cons (batch : List BatchOperation)
    (batches : List (List BatchOperation)) :
    writtenOperations (batch :: batches) =
      writtenOperations [batch] ++ writtenOperations batches := by
  unfold writtenOperations
  rw [← singleton_append, filter_append, flatten_append]

/-- Along a run the records follow the operations, and the indexes the records while no two
listed entries share a composite key. -/
theorem Running.writeAll {db : MemoryDb} {front : List BatchOperation} {state : MemoryState}
    (running : db.Running front state) (batches : List (List BatchOperation)) :
    ∃ after, (db.writeAll batches).Running (front ++ writtenOperations batches) after ∧
      (state.Projects →
        (∀ count, Distinct (LiveEntry (front ++ (writtenOperations batches).take count))) →
        after.Projects) := by
  induction batches generalizing db front state with
  | nil =>
    have nothing : front ++ writtenOperations [] = front := append_nil front
    rw [nothing]
    exact ⟨state, running, fun projects _ => projects⟩
  | cons batch rest ih =>
    obtain ⟨after, reached, kept⟩ := ih (running.write batch)
    rw [writtenOperations_cons, ← append_assoc]
    refine ⟨after, reached, fun projects distinct => kept ?_ fun count => ?_⟩
    · refine projects.foldl running.agrees db.nextSequence _ fun count => ?_
      have short := distinct (min count (writtenOperations [batch]).length)
      rw [take_append_of_le_length (min_le_right _ _)] at short
      rwa [take_eq_take_min]
    · have := distinct ((writtenOperations [batch]).length + count)
      rwa [take_length_add_append, ← append_assoc] at this

end MemoryDb

theorem liveKeys_origin {operations : List BatchOperation} {primaryKey : Bytes}
    {keys : SecondaryKeys} (live : (liveKeys operations).find? primaryKey = some keys) :
    ∃ operation ∈ operations, operation.primaryKey = primaryKey ∧
      operation.secondaryKeys = keys := by
  induction operations using List.reverseRecOn with
  | nil => cases live
  | append_singleton front operation ih =>
    rw [find?_liveKeys_concat] at live
    split at live
    · rename_i own
      split at live
      · cases live
      · exact ⟨operation, by simp, own.symm, Option.some.inj live⟩
    · obtain ⟨earlier, member, origin⟩ := ih live
      exact ⟨earlier, mem_append_left _ member, origin⟩

/-- All the keys of an operation are ones whose first zero byte is found. -/
def BatchOperation.ZeroesFound (operation : BatchOperation) : Prop :=
  IndexCodec.ZeroFound operation.primaryKey ∧
    ∀ name, ∀ secondaryKey ∈ listed operation.secondaryKeys name, IndexCodec.ZeroFound secondaryKey

theorem distinct_of_zeroesFound {operations : List BatchOperation}
    (found : ∀ operation ∈ operations, operation.ZeroesFound) :
    Distinct (LiveEntry operations) := by
  have zeroes : ∀ name entry, LiveEntry operations name entry →
      IndexCodec.ZeroFound entry.secondaryKey ∧ IndexCodec.ZeroFound entry.primaryKey := by
    rintro name entry ⟨keys, live, member⟩
    obtain ⟨operation, written, own, listing⟩ := liveKeys_origin live
    rw [← listing] at member
    exact ⟨(found operation written).2 name _ member, own ▸ (found operation written).1⟩
  intro name left right leftLive rightLive same
  have leftCode := (IndexCodec.encodeIndexCompositeKey_eq_iff _ _).mpr (zeroes name left leftLive)
  have rightCode :=
    (IndexCodec.encodeIndexCompositeKey_eq_iff _ _).mpr (zeroes name right rightLive)
  have leftRead := IndexCodec.decodeIndexCompositeKey_eq_some_iff.mpr leftCode
  have rightRead := IndexCodec.decodeIndexCompositeKey_eq_some_iff.mpr rightCode
  have composite : encodeIndexCompositeKey left.secondaryKey left.primaryKey =
      encodeIndexCompositeKey right.secondaryKey right.primaryKey := same
  rw [composite, rightRead] at leftRead
  obtain ⟨secondary, primary⟩ := Prod.ext_iff.mp (Option.some.inj leftRead)
  obtain ⟨leftSecondary, leftPrimary⟩ := left
  obtain ⟨rightSecondary, rightPrimary⟩ := right
  exact congrArg₂ MemoryIndexEntry.mk secondary.symm primary.symm

def BatchOperation.ShortKeys (operation : BatchOperation) : Prop :=
  operation.primaryKey.length < 2 ^ 32 ∧
    ∀ entry ∈ operation.secondaryKeys.entries, ∀ secondaryKey ∈ entry.2,
      secondaryKey.length < 2 ^ 32

instance (operation : BatchOperation) : Decidable operation.ShortKeys :=
  inferInstanceAs (Decidable (_ ∧ _))

theorem BatchOperation.ShortKeys.zeroesFound {operation : BatchOperation}
    (short : operation.ShortKeys) : operation.ZeroesFound := by
  refine ⟨IndexCodec.zeroFound_of_short short.1,
    fun name secondaryKey member => IndexCodec.zeroFound_of_short ?_⟩
  unfold listed at member
  cases found : operation.secondaryKeys.find? name with
  | none =>
    rw [found] at member
    cases member
  | some keys =>
    rw [found] at member
    exact short.2 (name, keys) (SortedMap.find?_eq_some_iff.mp found) secondaryKey member

theorem memory_indexes_project (batches : List (List BatchOperation))
    (distinct : ∀ count, Distinct (LiveEntry ((writtenOperations batches).take count))) :
    (∃ state, (MemoryDb.fresh.writeAll batches).memoryState = some state ∧ state.Projects) ∧
    ∀ batch : List BatchOperation, batch.any BatchOperation.isBlobRef = true →
      ((MemoryDb.fresh.writeAll batches).write batch).1 = MemoryDb.fresh.writeAll batches ∧
      ((MemoryDb.fresh.writeAll batches).write batch).2 ≠ .success := by
  obtain ⟨state, running, projects⟩ := MemoryDb.Running.fresh.writeAll batches
  exact ⟨⟨state, running.held, projects .empty distinct⟩,
    fun batch carries => MemoryDb.write_rejected _ carries⟩

/-- A record under two keys of one index, one of them listed twice, put again with another key,
and an erase of a record that is not there. -/
def repeatedPuts : List (List BatchOperation) :=
  [[.plain (.put [1] [9] (.ofList [([105], [[7], [0], [7]])])),
    .plain (.put [1] [9] (.ofList [([105], [[8]])]))], [.plain (.erase [2])]]

theorem memory_indexes_project_repeatedPuts :
    ∃ state, (MemoryDb.fresh.writeAll repeatedPuts).memoryState = some state ∧ state.Projects := by
  have short : ∀ operation ∈ writtenOperations repeatedPuts, operation.ShortKeys := by decide
  exact (memory_indexes_project repeatedPuts fun count => distinct_of_zeroesFound
    fun operation member => (short operation (mem_of_mem_take member)).zeroesFound).1

/-- Two records whose pairs of keys are written as the same composite key. -/
def collidingPuts : List (List BatchOperation) :=
  [[.plain (.put [255] [] (.ofList [([105], [List.replicate (2 ^ 32 - 1) 1 ++ [0]])])),
    .plain (.put [0] [] (.ofList [([105], [List.replicate (2 ^ 32 - 1) 1])]))]]

theorem memory_indexes_collide : ¬ ∀ batches, ∃ state,
    (MemoryDb.fresh.writeAll batches).memoryState = some state ∧ state.Projects := by
  intro always
  obtain ⟨state, held, projects⟩ := always collidingPuts
  obtain ⟨after, running, _⟩ := MemoryDb.Running.fresh.writeAll collidingPuts
  rw [running.held] at held
  cases held
  have collide := @IndexCodec.encodeIndexCompositeKey_collide (2 ^ 32 - 1) (by decide)
  have operations : [] ++ writtenOperations collidingPuts =
      [.plain (.put [255] [] (.ofList [([105], [List.replicate (2 ^ 32 - 1) 1 ++ [0]])]))] ++
        [.plain (.put [0] [] (.ofList [([105], [List.replicate (2 ^ 32 - 1) 1])]))] := rfl
  have agrees := running.agrees
  rw [operations] at agrees
  generalize List.replicate (2 ^ 32 - 1) (1 : UInt8) = ones at collide agrees
  have first : LiveEntry ([.plain (.put [255] [] (.ofList [([105], [ones ++ [0]])]))] ++
      [.plain (.put [0] [] (.ofList [([105], [ones])]))]) [105] ⟨ones ++ [0], [255]⟩ :=
    ⟨.ofList [([105], [ones ++ [0]])], by rw [find?_liveKeys_concat]; rfl, mem_singleton_self _⟩
  have second : LiveEntry ([.plain (.put [255] [] (.ofList [([105], [ones ++ [0]])]))] ++
      [.plain (.put [0] [] (.ofList [([105], [ones])]))]) [105] ⟨ones, [0]⟩ :=
    ⟨.ofList [([105], [ones])], by rw [find?_liveKeys_concat]; rfl, mem_singleton_self _⟩
  have left := (projects.entries _ _ _).mpr ⟨rfl, (agrees.lists_iff _ _).mpr first⟩
  have right := (projects.entries _ _ _).mpr ⟨rfl, (agrees.lists_iff _ _).mpr second⟩
  rw [MemoryIndexEntry.compositeKey, collide] at left
  rw [MemoryIndexEntry.compositeKey, left] at right
  have same := congrArg MemoryIndexEntry.primaryKey (Option.some.inj right)
  cases same

end SwStack.EmbeddedDb
