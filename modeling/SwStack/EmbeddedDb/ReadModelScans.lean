import SwStack.EmbeddedDb.IndexKeys
import SwStack.EmbeddedDb.ReadModel
import SwStack.Lib.Segments

/-! Range scans of the read model. The model keeps every live record once, but an index row for
every key that a record lists, and a scan ends at a value that cannot be read. -/
namespace SwStack.EmbeddedDb

open SwStack.Lib IndexCodec List

/-- The record is the one the store keeps under its key, and it is no tombstone. -/
def IsLive (store : Store) (row : ReadPrimaryRow) : Prop :=
  (mergedPrimary store).find? row.primaryKey =
    some { sequence := row.sequence, live := some row.live }

def withinBounds (start stop key : Bytes) : Bool := start ≤ key && inPrimaryRange stop key

def PrimaryInRange (store : Store) (startKey endKey : Bytes) (row : ReadPrimaryRow) : Prop :=
  IsLive store row ∧ withinBounds startKey endKey row.primaryKey = true

def keysIn (indexName : IndexName) (row : ReadPrimaryRow) : List Bytes :=
  (row.live.secondaryKeys.find? indexName).getD []

/-- In the keys that live records list in an index, and in their own, zero bytes are found. -/
def KeysFound (store : Store) (indexName : IndexName) : Prop :=
  ∀ row, IsLive store row → ∀ secondaryKey ∈ keysIn indexName row,
    ZeroFound secondaryKey ∧ ZeroFound row.primaryKey

/-- A secondary key and the record that lists it. -/
def IndexInRange (store : Store) (indexName : IndexName) (startKey endKey : Bytes)
    (entry : Bytes × ReadPrimaryRow) : Prop :=
  IsLive store entry.2 ∧ entry.1 ∈ keysIn indexName entry.2 ∧
    withinBounds startKey endKey entry.1 = true

def primaryKeyOrder (left right : ReadPrimaryRow) : Prop := left.primaryKey < right.primaryKey

def indexOrder (left right : Bytes × ReadPrimaryRow) : Prop :=
  left.1 < right.1 ∨ left.1 = right.1 ∧ left.2.primaryKey < right.2.primaryKey

def ListsPrimary (snapshot : SnapshotState) (blobs : BlobDir) (store : Store)
    (startKey endKey : Bytes) : List DbEntry → Prop :=
  Listing primaryKeyOrder (PrimaryInRange store startKey endKey)
    (materializeReadEntry snapshot blobs [])

def ListsIndex (snapshot : SnapshotState) (blobs : BlobDir) (store : Store)
    (indexName : IndexName) (startKey endKey : Bytes) : List DbEntry → Prop :=
  Listing indexOrder (IndexInRange store indexName startKey endKey) fun entry =>
    materializeReadEntry snapshot blobs entry.1 entry.2

/-- The snapshot of a store, before anything is written over its read model. -/
def SnapshotState.viewing (snapshot : SnapshotState) (store : Store) : SnapshotState :=
  { snapshot with readModel := buildReadModelLocked store, overlay := none }

variable {store : Store} {row : ReadPrimaryRow}

theorem mem_primaryRows : row ∈ primaryRows (mergedPrimary store) ↔ IsLive store row := by
  rw [IsLive, SortedMap.find?_eq_some_iff, primaryRows, mem_filterMap]
  constructor
  · rintro ⟨⟨key, record⟩, member, made⟩
    obtain ⟨live, held, rfl⟩ := Option.map_eq_some_iff.mp made
    obtain ⟨sequence, held⟩ : ∃ sequence, record = { sequence, live := some live } :=
      ⟨record.sequence, by rw [← held]⟩
    subst held
    exact member
  · intro member
    exact ⟨_, member, rfl⟩

theorem IsLive.unique (live : IsLive store row)
    (otherLive : IsLive store other) (same : row.primaryKey = other.primaryKey) : row = other := by
  obtain ⟨key, record, sequence⟩ := row
  obtain ⟨otherKey, otherRecord, otherSequence⟩ := other
  obtain rfl : key = otherKey := same
  cases live.symm.trans otherLive
  rfl

theorem primaryRows_ordered (merged : PrimaryMemStore) :
    (primaryRows merged).Pairwise primaryKeyOrder := by
  rw [primaryRows, pairwise_filterMap]
  refine merged.ordered.imp ?_
  intro left right before row made other madeOther
  obtain ⟨live, -, rfl⟩ := Option.map_eq_some_iff.mp made
  obtain ⟨otherLive, -, rfl⟩ := Option.map_eq_some_iff.mp madeOther
  exact before

theorem primaryRows_nodup (merged : PrimaryMemStore) : (primaryRows merged).Nodup := by
  refine (primaryRows_ordered merged).imp ?_
  rintro left right before rfl
  exact lt_irrefl _ before

theorem materializeReadEntry_isSome :
    (materializeReadEntry snapshot blobs secondaryKey row).isSome =
      (snapshot.resolveValue blobs row.live.value).isSome := Option.isSome_map

theorem withinBounds_nil (stop key : Bytes) : withinBounds [] stop key = inPrimaryRange stop key := by
  have least : ([] : Bytes) ≤ key := not_lt.mp (not_lt_nil key)
  simp only [withinBounds, least, decide_true, Bool.true_and]

theorem inPrimaryRange_closed (le : low ≤ high)
    (inside : inPrimaryRange stop high = true) : inPrimaryRange stop low = true := by
  rw [inPrimaryRange, Bool.or_eq_true, decide_eq_true_iff] at inside ⊢
  exact inside.imp_right le.trans_lt

theorem notBelow_and_inRange :
    (!decide (key < start) && inPrimaryRange stop key) = withinBounds start stop key := by
  rw [withinBounds, ← decide_not]
  congr 2
  exact propext not_lt

theorem flatten_primaryStart :
    ((primaryStart (buildReadModelLocked store) startKey).flatten.takeWhile fun row =>
        inPrimaryRange endKey row.primaryKey) =
      (primaryRows (mergedPrimary store)).filter fun row =>
        withinBounds startKey endKey row.primaryKey := by
  have rows : (buildReadModelLocked store).primarySegments.flatten =
      primaryRows (mergedPrimary store) := flatten_segmentRows _ _ _
  have ordered := primaryRows_ordered (mergedPrimary store)
  have admits : DownClosed (fun row => inPrimaryRange endKey row.primaryKey)
      (primaryRows (mergedPrimary store)) :=
    ordered.imp fun before => inPrimaryRange_closed before.le
  have below : DownClosed (fun row => decide (row.primaryKey < startKey))
      (primaryRows (mergedPrimary store)) :=
    ordered.imp fun before held => decide_eq_true (before.trans (of_decide_eq_true held))
  rw [primaryStart]
  split
  · rename_i empty
    rw [rows, takeWhile_of_downClosed admits, List.isEmpty_iff.mp empty]
    exact filter_congr fun row _ => (withinBounds_nil _ _).symm
  · have filled : ∀ segment ∈ (buildReadModelLocked store).primarySegments, segment ≠ [] :=
      fun _ => ne_nil_of_mem_segmentRows
    rw [flatten_locateStart filled (rows.symm ▸ below), rows, range_of_downClosed below admits]
    exact filter_congr fun row _ => notBelow_and_inRange

theorem encodeIndexCompositeKey_lt_iff (found : ZeroFound secondaryKey ∧ ZeroFound primaryKey)
    (otherFound : ZeroFound otherSecondary ∧ ZeroFound otherPrimary) :
    encodeIndexCompositeKey secondaryKey primaryKey <
        encodeIndexCompositeKey otherSecondary otherPrimary ↔
      secondaryKey < otherSecondary ∨ secondaryKey = otherSecondary ∧ primaryKey < otherPrimary := by
  rw [(encodeIndexCompositeKey_eq_iff _ _).mpr found,
    (encodeIndexCompositeKey_eq_iff _ _).mpr otherFound, Escape.terminate_append_lt_iff,
    Escape.terminate_lt_iff]

/-- The entries that the records list, record by record. -/
def indexEntries (indexName : IndexName) (rows : List ReadPrimaryRow) :
    List (Bytes × ReadPrimaryRow) :=
  rows.flatMap fun row => (keysIn indexName row).map fun secondaryKey => (secondaryKey, row)

/-- The entry that an index row stands for. -/
def ReadModel.resolve (readModel : ReadModel) (row : ReadIndexRow) :
    Option (Bytes × ReadPrimaryRow) :=
  ((readModel.primarySegments[row.primarySegmentIndex]?).bind fun segment =>
    segment[row.primaryRowIndex]?).map fun primary => (row.secondaryKey, primary)

theorem readModelIndexNext_eq (snapshot : SnapshotState) (blobs : BlobDir) (stop : Bytes) :
    readModelIndexNext snapshot blobs stop =
      scanNext (fun row => inPrimaryRange stop row.secondaryKey) fun row =>
        (snapshot.readModel.resolve row).bind fun entry =>
          materializeReadEntry snapshot blobs entry.1 entry.2 := by
  funext cursor
  rw [readModelIndexNext, scanNext]
  cases nextRow cursor with
  | none => rfl
  | some pulled =>
    obtain ⟨row, rest⟩ := pulled
    dsimp only
    split
    · rw [ReadModel.resolve]
      cases snapshot.readModel.primarySegments[row.primarySegmentIndex]? with
      | none => rfl
      | some segment =>
        dsimp only [Option.bind_some]
        cases segment[row.primaryRowIndex]? with
        | none => rfl
        | some primary => rfl
    · rfl

section

variable {store : Store} {indexName : IndexName}

local instance : Std.Total compositeOrder := ⟨fun _ _ => le_total _ _⟩
local instance : IsTrans ReadIndexRow compositeOrder := ⟨fun _ _ _ first second => first.trans second⟩

theorem indexRows_ordered (rows : List ReadPrimaryRow) :
    (indexRows indexName rows).Pairwise compositeOrder := pairwise_insertionSort _ _

/-- The index row of one key that a record lists. -/
def indexRow (row : ReadPrimaryRow × Nat) (secondaryKey : Bytes) : ReadIndexRow :=
  { compositeKey := encodeIndexCompositeKey secondaryKey row.1.primaryKey
    secondaryKey
    primarySegmentIndex := row.2 / rowsPerSegment
    primaryRowIndex := row.2 % rowsPerSegment }

theorem resolve_indexRow
    (here : (primaryRows (mergedPrimary store))[position]? = some primary) (secondaryKey : Bytes) :
    (buildReadModelLocked store).resolve (indexRow (primary, position) secondaryKey) =
      some (secondaryKey, primary) := by
  have found : ((segmentRows rowsPerSegment [] (primaryRows (mergedPrimary store)))[position /
      rowsPerSegment]?.bind fun segment => segment[position % rowsPerSegment]?) = some primary :=
    (getElem?_segmentRows (by decide) position).trans here
  exact congrArg (Option.map _) found

theorem resolve_of_mem {row : ReadIndexRow}
    (member : row ∈ indexRows indexName (primaryRows (mergedPrimary store))) :
    ∃ entry, (buildReadModelLocked store).resolve row = some entry ∧
      (IsLive store entry.2 ∧ entry.1 ∈ keysIn indexName entry.2) ∧
      row.secondaryKey = entry.1 ∧
      row.compositeKey = encodeIndexCompositeKey entry.1 entry.2.primaryKey := by
  rw [indexRows, mem_insertionSort, mem_flatMap] at member
  obtain ⟨⟨primary, position⟩, here, member⟩ := member
  obtain ⟨secondaryKey, listed, rfl⟩ := mem_map.mp member
  have found := mem_zipIdx_iff_getElem?.mp here
  exact ⟨_, resolve_indexRow found secondaryKey,
    ⟨mem_primaryRows.mp (mem_of_getElem? found), listed⟩, rfl, rfl⟩

theorem filterMap_resolve_perm :
    ((indexRows indexName (primaryRows (mergedPrimary store))).filterMap
      (buildReadModelLocked store).resolve).Perm
        (indexEntries indexName (primaryRows (mergedPrimary store))) := by
  refine ((perm_insertionSort _ _).filterMap _).trans (List.Perm.of_eq ?_)
  have listed : ∀ row ∈ (primaryRows (mergedPrimary store)).zipIdx,
      (indexRowsOf indexName row).filterMap (buildReadModelLocked store).resolve =
        (keysIn indexName row.1).map fun secondaryKey => (secondaryKey, row.1) := by
    rintro ⟨primary, position⟩ here
    have resolved := resolve_indexRow (mem_zipIdx_iff_getElem?.mp here)
    have rows : indexRowsOf indexName (primary, position) =
        (keysIn indexName primary).map (indexRow (primary, position)) := rfl
    rw [rows, filterMap_map, ← filterMap_eq_map]
    exact filterMap_congr fun secondaryKey _ => resolved secondaryKey
  rw [filterMap_flatMap, flatMap_congr listed, indexEntries,
    ← flatMap_map Prod.fst (fun row : ReadPrimaryRow =>
      (keysIn indexName row).map fun secondaryKey => (secondaryKey, row)), zipIdx_map_fst]

/-- The segments kept for an index are those of its rows; an index without rows has none. -/
theorem indexSegments_eq :
    ((buildReadModelLocked store).indexSegments.find? indexName).getD [] =
      segmentRows rowsPerSegment [] (indexRows indexName (primaryRows (mergedPrimary store))) := by
  let rows := primaryRows (mergedPrimary store)
  let segmentsOf (name : IndexName) : Option (IndexName × List (List ReadIndexRow)) :=
    if (indexRows name rows).isEmpty then none
    else some (name, segmentRows rowsPerSegment [] (indexRows name rows))
  have built : (buildReadModelLocked store).indexSegments =
      SortedMap.ofList ((readModelIndexNames rows).filterMap segmentsOf) := by
    refine congrArg SortedMap.ofList ?_
    rw [filterMap_map]
    rfl
  have ordered : ((readModelIndexNames rows).filterMap segmentsOf).Pairwise
      fun left right => left.1 < right.1 := by
    have names := (SortedMap.ofList (rows.flatMap fun row =>
      row.live.secondaryKeys.keys.map fun name => (name, ()))).ordered
    refine List.Pairwise.filterMap _ ?_ (pairwise_map.mpr names)
    intro left right before made member madeOther otherMember
    obtain ⟨-, same⟩ := Option.ite_none_left_eq_some.mp member
    obtain ⟨-, other⟩ := Option.ite_none_left_eq_some.mp otherMember
    rw [← Option.some.inj same, ← Option.some.inj other]
    exact before
  have members := SortedMap.ofList_of_ordered ordered
  rw [built]
  cases found : (SortedMap.ofList ((readModelIndexNames rows).filterMap segmentsOf)).find?
      indexName with
  | some segments =>
    have member := SortedMap.find?_eq_some_iff.mp found
    rw [members, mem_filterMap] at member
    obtain ⟨name, -, made⟩ := member
    obtain ⟨-, same⟩ := Option.ite_none_left_eq_some.mp made
    cases same
    rfl
  | none =>
    suffices none_listed : indexRows indexName rows = [] by
      rw [none_listed]
      rfl
    refine eq_nil_iff_forall_not_mem.mpr fun row member => ?_
    have entry := member
    rw [indexRows, mem_insertionSort, mem_flatMap] at entry
    obtain ⟨⟨primary, position⟩, here, entry⟩ := entry
    obtain ⟨secondaryKey, listed, -⟩ := mem_map.mp entry
    have named : indexName ∈ readModelIndexNames rows := by
      have inside : primary ∈ rows := mem_of_getElem? (mem_zipIdx_iff_getElem?.mp here)
      have key : indexName ∈ primary.live.secondaryKeys.keys := by
        rw [SortedMap.mem_keys]
        cases keys : primary.live.secondaryKeys.find? indexName with
        | some keys => rfl
        | none =>
          rw [keys] at listed
          cases listed
      refine SortedMap.mem_keys_ofList.mpr (mem_map.mpr ⟨(indexName, ()), ?_, rfl⟩)
      exact mem_flatMap.mpr ⟨primary, inside, mem_map.mpr ⟨indexName, key, rfl⟩⟩
    have filled : ¬(indexRows indexName rows).isEmpty = true := fun empty => by
      rw [List.isEmpty_iff.mp empty] at member
      cases member
    have kept : (indexName, segmentRows rowsPerSegment [] (indexRows indexName rows)) ∈
        (SortedMap.ofList ((readModelIndexNames rows).filterMap segmentsOf)).entries := by
      rw [members]
      exact mem_filterMap.mpr ⟨indexName, named, if_neg filled⟩
    cases found.symm.trans (SortedMap.find?_of_mem kept)

/-- The index entries in the order of their rows. -/
def orderedEntries (store : Store) (indexName : IndexName) : List (Bytes × ReadPrimaryRow) :=
  (indexRows indexName (primaryRows (mergedPrimary store))).filterMap
    (buildReadModelLocked store).resolve

theorem mem_orderedEntries : entry ∈ orderedEntries store indexName ↔
      IsLive store entry.2 ∧ entry.1 ∈ keysIn indexName entry.2 := by
  rw [orderedEntries, filterMap_resolve_perm.mem_iff, indexEntries, mem_flatMap]
  constructor
  · rintro ⟨row, live, member⟩
    obtain ⟨secondaryKey, listed, rfl⟩ := mem_map.mp member
    exact ⟨mem_primaryRows.mp live, listed⟩
  · rintro ⟨live, listed⟩
    exact ⟨entry.2, mem_primaryRows.mpr live, mem_map.mpr ⟨entry.1, listed, rfl⟩⟩

/-- Neither entry comes before the other only when they are the same. -/
def indexWeakOrder (left right : Bytes × ReadPrimaryRow) : Prop := ¬indexOrder right left

theorem orderedEntries_ordered (found : KeysFound store indexName) :
    (orderedEntries store indexName).Pairwise indexWeakOrder := by
  refine pairwise_filterMap.mpr ?_
  refine (indexRows_ordered _).imp_of_mem ?_
  intro left right leftMember rightMember before entry resolved other otherResolved above
  obtain ⟨_, same, ⟨leftLive, leftListed⟩, -, leftKey⟩ := resolve_of_mem leftMember
  cases same.symm.trans resolved
  obtain ⟨_, same, ⟨rightLive, rightListed⟩, -, rightKey⟩ := resolve_of_mem rightMember
  cases same.symm.trans otherResolved
  have after := (encodeIndexCompositeKey_lt_iff (found _ rightLive _ rightListed)
    (found _ leftLive _ leftListed)).mpr above
  rw [← leftKey, ← rightKey] at after
  exact absurd before (not_le.mpr after)

theorem indexOrder_of_ne (leftLive : IsLive store left.2)
    (rightLive : IsLive store right.2) (before : indexWeakOrder left right)
    (different : left ≠ right) : indexOrder left right := by
  obtain ⟨secondaryKey, row⟩ := left
  obtain ⟨otherKey, other⟩ := right
  rcases lt_trichotomy secondaryKey otherKey with less | rfl | greater
  · exact .inl less
  · rcases lt_trichotomy row.primaryKey other.primaryKey with less | same | greater
    · exact .inr ⟨rfl, less⟩
    · have rows : row = other := leftLive.unique rightLive same
      exact absurd (congrArg (Prod.mk secondaryKey) rows) different
    · exact absurd (.inr ⟨rfl, greater⟩) before
  · exact absurd (.inl greater) before

/-- The index entries that a scan meets. -/
def scannedEntries (store : Store) (indexName : IndexName) (startKey endKey : Bytes) :
    List (Bytes × ReadPrimaryRow) :=
  ((indexStart (buildReadModelLocked store) indexName startKey).flatten.takeWhile fun row =>
    inPrimaryRange endKey row.secondaryKey).filterMap (buildReadModelLocked store).resolve

theorem flatten_indexStart (startKey : Bytes) :
    (indexStart (buildReadModelLocked store) indexName startKey).flatten =
      if startKey.isEmpty then indexRows indexName (primaryRows (mergedPrimary store))
      else (indexRows indexName (primaryRows (mergedPrimary store))).dropWhile fun row =>
        row.compositeKey < encodeIndexCompositeKey startKey [] := by
  have below : DownClosed
      (fun row : ReadIndexRow => decide (row.compositeKey < encodeIndexCompositeKey startKey []))
      (indexRows indexName (primaryRows (mergedPrimary store))) :=
    (indexRows_ordered _).imp fun before held =>
      decide_eq_true (before.trans_lt (of_decide_eq_true held))
  rw [indexStart, indexSegments_eq]
  dsimp only
  split
  · rw [flatten_segmentRows, nil_append]
  · rw [flatten_locateStart (fun _ => ne_nil_of_mem_segmentRows)
      (by rw [flatten_segmentRows]; exact below), flatten_segmentRows, nil_append]

theorem takeWhile_indexStart {startKey endKey : Bytes} (found : KeysFound store indexName)
    (startFound : ZeroFound startKey) :
    ((indexStart (buildReadModelLocked store) indexName startKey).flatten.takeWhile fun row =>
        inPrimaryRange endKey row.secondaryKey) =
      (indexRows indexName (primaryRows (mergedPrimary store))).filter fun row =>
        withinBounds startKey endKey row.secondaryKey := by
  let rows := indexRows indexName (primaryRows (mergedPrimary store))
  have ordered : rows.Pairwise compositeOrder := indexRows_ordered _
  have admits : DownClosed (fun row : ReadIndexRow => inPrimaryRange endKey row.secondaryKey)
      rows := by
    refine ordered.imp_of_mem ?_
    intro left right leftMember rightMember before inside
    obtain ⟨entry, -, live, leftSecondary, leftKey⟩ := resolve_of_mem leftMember
    obtain ⟨other, -, otherLive, rightSecondary, rightKey⟩ := resolve_of_mem rightMember
    refine inPrimaryRange_closed (not_lt.mp fun after => ?_) inside
    rw [leftSecondary, rightSecondary] at after
    have larger : encodeIndexCompositeKey other.1 other.2.primaryKey <
        encodeIndexCompositeKey entry.1 entry.2.primaryKey :=
      (encodeIndexCompositeKey_lt_iff (found _ otherLive.1 _ otherLive.2)
        (found _ live.1 _ live.2)).mpr (.inl after)
    rw [← leftKey, ← rightKey] at larger
    exact absurd before (not_le.mpr larger)
  rw [flatten_indexStart]
  split
  · rename_i empty
    rw [takeWhile_of_downClosed admits, List.isEmpty_iff.mp empty]
    exact filter_congr fun row _ => (withinBounds_nil _ _).symm
  · have below : DownClosed
        (fun row => decide (row.compositeKey < encodeIndexCompositeKey startKey [])) rows :=
      ordered.imp fun before held => decide_eq_true (before.trans_lt (of_decide_eq_true held))
    rw [range_of_downClosed below admits]
    refine filter_congr fun row member => ?_
    obtain ⟨entry, -, live, secondary, key⟩ := resolve_of_mem member
    have least : ZeroFound [] := zeroFound_of_short (by decide)
    have same : row.compositeKey < encodeIndexCompositeKey startKey [] ↔
        row.secondaryKey < startKey := by
      rw [key, secondary, encodeIndexCompositeKey_lt_iff (found _ live.1 _ live.2)
        ⟨startFound, least⟩]
      exact or_iff_left fun below => not_lt_nil _ below.2
    rw [← notBelow_and_inRange, decide_eq_decide.mpr same]

/-- Where the zero bytes of the keys are found, a scan meets the entries between its bounds. -/
theorem scannedEntries_of_found {startKey : Bytes} (found : KeysFound store indexName)
    (startFound : ZeroFound startKey) (endKey : Bytes) :
    scannedEntries store indexName startKey endKey =
      (orderedEntries store indexName).filter fun entry => withinBounds startKey endKey entry.1 := by
  rw [scannedEntries, takeWhile_indexStart found startFound, orderedEntries, filterMap_filter,
    filter_filterMap]
  refine filterMap_congr fun row member => ?_
  obtain ⟨entry, resolved, -, secondary, -⟩ := resolve_of_mem member
  rw [resolved, secondary]
  rfl

/-- The same entry is met twice when a record lists a key twice. -/
theorem nodup_orderedEntries_iff (startKey endKey : Bytes) :
    ((orderedEntries store indexName).filter fun entry =>
        withinBounds startKey endKey entry.1).Nodup ↔
      ∀ row, IsLive store row →
        ((keysIn indexName row).filter (withinBounds startKey endKey)).Nodup := by
  have permuted := (@filterMap_resolve_perm store indexName).filter
    fun entry => withinBounds startKey endKey entry.1
  have listed (row : ReadPrimaryRow) :
      (((keysIn indexName row).map fun secondaryKey => (secondaryKey, row)).filter fun entry =>
          withinBounds startKey endKey entry.1) =
        ((keysIn indexName row).filter (withinBounds startKey endKey)).map fun secondaryKey =>
          (secondaryKey, row) := filter_map
  have injective (row : ReadPrimaryRow) :
      Function.Injective fun secondaryKey : Bytes => (secondaryKey, row) :=
    fun _ _ same => congrArg Prod.fst same
  rw [orderedEntries, permuted.nodup_iff, indexEntries, filter_flatMap, nodup_flatMap]
  constructor
  · rintro ⟨each, -⟩ row live
    have distinct := each row (mem_primaryRows.mpr live)
    rw [listed] at distinct
    exact distinct.of_map _
  · refine fun each => ⟨fun row member => ?_, (primaryRows_nodup _).imp ?_⟩
    · rw [listed]
      exact (each row (mem_primaryRows.mp member)).map (injective row)
    · intro left right different entry first second
      dsimp only at first second
      rw [listed] at first second
      obtain ⟨_, -, rfl⟩ := mem_map.mp first
      obtain ⟨_, -, same⟩ := mem_map.mp second
      exact different (congrArg Prod.snd same).symm

end

theorem drains_primary (snapshot : SnapshotState) (blobs : BlobDir) (store : Store)
    (startKey endKey : Bytes) :
    Drains (IteratorState.next (snapshot.viewing store) blobs)
      (createPrimaryIteratorState (snapshot.viewing store) startKey endKey)
      (emitted (materializeReadEntry (snapshot.viewing store) blobs [])
        ((primaryRows (mergedPrimary store)).filter fun row =>
          withinBounds startKey endKey row.primaryKey)) := by
  have pulls : readModelPrimaryNext (snapshot.viewing store) blobs endKey =
      scanNext (fun row => inPrimaryRange endKey row.primaryKey)
        (materializeReadEntry (snapshot.viewing store) blobs []) := by
    funext cursor
    rw [readModelPrimaryNext, scanNext]
    cases nextRow cursor <;> rfl
  have drained := drains_scanNext (fun row => inPrimaryRange endKey row.primaryKey)
    (materializeReadEntry (snapshot.viewing store) blobs [])
    (primaryStart (buildReadModelLocked store) startKey)
  rw [flatten_primaryStart, ← pulls] at drained
  have calls (cursor : List (List ReadPrimaryRow)) :
      IteratorState.next (snapshot.viewing store) blobs (.primary endKey cursor) =
        (readModelPrimaryNext (snapshot.viewing store) blobs endKey cursor).map fun result =>
          (result.1, .primary endKey result.2) := rfl
  exact Drains.lift calls drained

theorem drains_index (snapshot : SnapshotState) (blobs : BlobDir) (store : Store)
    (indexName : IndexName) (startKey endKey : Bytes) :
    Drains (IteratorState.next (snapshot.viewing store) blobs)
      (createIndexIteratorState (snapshot.viewing store) indexName startKey endKey)
      (emitted (fun entry => materializeReadEntry (snapshot.viewing store) blobs entry.1 entry.2)
        (scannedEntries store indexName startKey endKey)) := by
  have drained := drains_scanNext (fun row => inPrimaryRange endKey row.secondaryKey)
    (fun row => ((buildReadModelLocked store).resolve row).bind fun entry =>
      materializeReadEntry (snapshot.viewing store) blobs entry.1 entry.2)
    (indexStart (buildReadModelLocked store) indexName startKey)
  have resolved : ∀ row ∈ (indexStart (buildReadModelLocked store) indexName
      startKey).flatten.takeWhile fun row => inPrimaryRange endKey row.secondaryKey,
      ((buildReadModelLocked store).resolve row).isSome := by
    intro row member
    have inside : row ∈ indexRows indexName (primaryRows (mergedPrimary store)) := by
      have started := (takeWhile_sublist _).subset member
      rw [flatten_indexStart] at started
      split at started
      · exact started
      · exact (dropWhile_sublist _).subset started
    obtain ⟨entry, stands, -⟩ := resolve_of_mem inside
    exact Option.isSome_iff_exists.mpr ⟨entry, stands⟩
  rw [emitted_filterMap resolved] at drained
  have pulls := readModelIndexNext_eq (snapshot.viewing store) blobs endKey
  change readModelIndexNext _ _ _ = scanNext _ fun row =>
    ((buildReadModelLocked store).resolve row).bind _ at pulls
  rw [← pulls] at drained
  have calls (cursor : List (List ReadIndexRow)) :
      IteratorState.next (snapshot.viewing store) blobs (.index endKey cursor) =
        (readModelIndexNext (snapshot.viewing store) blobs endKey cursor).map fun result =>
          (result.1, .index endKey result.2) := rfl
  exact Drains.lift calls drained

theorem listsPrimary_iff (snapshot : SnapshotState) (blobs : BlobDir) (store : Store)
    (startKey endKey : Bytes) :
    ListsPrimary snapshot blobs store startKey endKey
        (emitted (materializeReadEntry snapshot blobs [])
          ((primaryRows (mergedPrimary store)).filter fun row =>
            withinBounds startKey endKey row.primaryKey)) ↔
      ∀ row, PrimaryInRange store startKey endKey row →
        (snapshot.resolveValue blobs row.live.value).isSome := by
  have members (row : ReadPrimaryRow) :
      (row ∈ (primaryRows (mergedPrimary store)).filter fun row =>
        withinBounds startKey endKey row.primaryKey) ↔ PrimaryInRange store startKey endKey row := by
    rw [mem_filter, mem_primaryRows]
    rfl
  rw [ListsPrimary, listing_emitted_iff (fun row => lt_irrefl row.primaryKey)
    ((primaryRows_ordered _).filter _) (fun left _ right _ before _ => before) members]
  constructor
  · intro ⟨_, all⟩ row inside
    exact materializeReadEntry_isSome ▸ all row ((members row).mpr inside)
  · intro all
    refine ⟨(primaryRows_nodup _).filter _, fun row member => ?_⟩
    exact materializeReadEntry_isSome ▸ all row ((members row).mp member)

theorem listsIndex_iff (snapshot : SnapshotState) (blobs : BlobDir) {store : Store}
    {indexName : IndexName} {startKey : Bytes} (found : KeysFound store indexName)
    (startFound : ZeroFound startKey) (endKey : Bytes) :
    ListsIndex snapshot blobs store indexName startKey endKey
        (emitted (fun entry => materializeReadEntry snapshot blobs entry.1 entry.2)
          (scannedEntries store indexName startKey endKey)) ↔
      (∀ row, IsLive store row →
        ((keysIn indexName row).filter (withinBounds startKey endKey)).Nodup) ∧
      ∀ entry, IndexInRange store indexName startKey endKey entry →
        (snapshot.resolveValue blobs entry.2.live.value).isSome := by
  have members (entry : Bytes × ReadPrimaryRow) :
      (entry ∈ (orderedEntries store indexName).filter fun entry =>
        withinBounds startKey endKey entry.1) ↔
          IndexInRange store indexName startKey endKey entry := by
    rw [mem_filter, mem_orderedEntries, and_assoc]
    rfl
  have irrefl (entry : Bytes × ReadPrimaryRow) : ¬indexOrder entry entry := by
    rintro (before | ⟨-, before⟩)
    · exact lt_irrefl _ before
    · exact lt_irrefl _ before
  rw [ListsIndex, scannedEntries_of_found found startFound, listing_emitted_iff irrefl ((orderedEntries_ordered found).filter _)
    (fun left leftMember right rightMember before different =>
      indexOrder_of_ne ((members left).mp leftMember).1 ((members right).mp rightMember).1 before
        different) members, nodup_orderedEntries_iff]
  refine and_congr_right fun _ => ⟨fun all entry inside => ?_, fun all entry member => ?_⟩
  · exact materializeReadEntry_isSome ▸ all entry ((members entry).mpr inside)
  · exact materializeReadEntry_isSome ▸ all entry ((members entry).mp member)

/-- Scans list what they should when all they meet can be read, and when no record lists a key of
the index twice, as long as the zero bytes of its keys are found. -/
theorem scans_list_iff (snapshot : SnapshotState) (blobs : BlobDir) (store : Store)
    (startKey endKey : Bytes) :
    (∃ entries, Drains (IteratorState.next (snapshot.viewing store) blobs)
        (createPrimaryIteratorState (snapshot.viewing store) startKey endKey) entries ∧
      (ListsPrimary snapshot blobs store startKey endKey entries ↔
        ∀ row, PrimaryInRange store startKey endKey row →
          (snapshot.resolveValue blobs row.live.value).isSome)) ∧
    ∀ indexName, KeysFound store indexName → ZeroFound startKey →
      ∃ entries, Drains (IteratorState.next (snapshot.viewing store) blobs)
          (createIndexIteratorState (snapshot.viewing store) indexName startKey endKey) entries ∧
        (ListsIndex snapshot blobs store indexName startKey endKey entries ↔
          (∀ row, IsLive store row →
            ((keysIn indexName row).filter (withinBounds startKey endKey)).Nodup) ∧
          ∀ entry, IndexInRange store indexName startKey endKey entry →
            (snapshot.resolveValue blobs entry.2.live.value).isSome) :=
  ⟨⟨_, drains_primary snapshot blobs store startKey endKey, by
      exact listsPrimary_iff snapshot blobs store startKey endKey⟩,
    fun indexName found startFound =>
      ⟨_, drains_index snapshot blobs store indexName startKey endKey, by
        exact listsIndex_iff snapshot blobs found startFound endKey⟩⟩

/-- A store with these records in memory. -/
def storeOf (primary : PrimaryMemStore) : Store :=
  { manifest := Manifest.initial
    mutable := { MemTable.new 1 with primary }
    immutables := []
    maxKnownPrimaryKey := [1]
    lastVisibleSequence := 1
    applyGeneration := 1 }

/-- A record that lists keys of index `7`. -/
def recordOf (keys : List Bytes) : PrimaryRecord :=
  { sequence := 1
    live := some { value := .inline [], secondaryKeys := SortedMap.insert ∅ [7] keys } }

def snapshotOf (store : Store) : SnapshotState :=
  { visibleSequence := 1, readModel := buildReadModelLocked store, overlay := none
    mutableMem := store.mutable, immutableMems := [], primaryTablesNewestFirst := []
    blobFiles := ∅ }

def noBlobs : BlobDir := { names := ∅, inodes := ∅, nextInode := 0 }

/-- Three records: two share a key of the index, and one of them lists another. -/
def sharedKeys : Store :=
  storeOf (SortedMap.insert (SortedMap.insert (SortedMap.insert ∅ [1] (recordOf [[2]])) [2]
    (recordOf [[3], [2]])) [3] (recordOf [[5]]))

theorem keysFound_of_short {store : Store} {indexName : IndexName}
    (short : ∀ row ∈ primaryRows (mergedPrimary store), ∀ key ∈ keysIn indexName row,
      key.length < 2 ^ 32 ∧ row.primaryKey.length < 2 ^ 32) : KeysFound store indexName := by
  intro row live key listed
  obtain ⟨keyShort, rowShort⟩ := short row (mem_primaryRows.mpr live) key listed
  exact ⟨zeroFound_of_short keyShort, zeroFound_of_short rowShort⟩

/-- The shared key is listed under both records, and the key at the upper bound is not. -/
theorem scans_list_shared : ∃ entries,
    Drains (IteratorState.next (snapshotOf sharedKeys) noBlobs)
      (createIndexIteratorState (snapshotOf sharedKeys) [7] [2] [5]) entries ∧
    ListsIndex (snapshotOf sharedKeys) noBlobs sharedKeys [7] [2] [5] entries ∧
    entries.map (fun entry => (entry.secondaryKey, entry.primaryKey)) =
      [([2], [1]), ([2], [2]), ([3], [2])] := by
  have found : KeysFound sharedKeys [7] := keysFound_of_short (by decide +kernel)
  have startFound : ZeroFound [2] := zeroFound_of_short (by decide)
  obtain ⟨entries, drains, lists⟩ := (scans_list_iff (snapshotOf sharedKeys) noBlobs sharedKeys [2]
    [5]).2 [7] found startFound
  have same := drains.unique (drains_index (snapshotOf sharedKeys) noBlobs sharedKeys [7] [2] [5])
  refine ⟨entries, drains, lists.mpr ⟨fun row live => ?_, fun entry inside => ?_⟩, ?_⟩
  · have distinct : ∀ row ∈ primaryRows (mergedPrimary sharedKeys),
        ((keysIn [7] row).filter (withinBounds [2] [5])).Nodup := by decide +kernel
    exact distinct row (mem_primaryRows.mpr live)
  · have inline : ∀ row ∈ primaryRows (mergedPrimary sharedKeys),
        ((snapshotOf sharedKeys).resolveValue noBlobs row.live.value).isSome := by decide +kernel
    exact inline entry.2 (mem_primaryRows.mpr inside.1)
  · rw [same]
    decide +kernel

/-- A store with one record, which lists one key twice. -/
def listedTwice : Store := storeOf (SortedMap.insert ∅ [1] (recordOf [[2], [2]]))

theorem scans_list_twice : ¬∀ (snapshot : SnapshotState) (blobs : BlobDir) (store : Store)
    (indexName : IndexName) (startKey endKey : Bytes) (entries : List DbEntry),
    Drains (IteratorState.next (snapshot.viewing store) blobs)
        (createIndexIteratorState (snapshot.viewing store) indexName startKey endKey) entries →
      ListsIndex snapshot blobs store indexName startKey endKey entries := by
  intro always
  have found : KeysFound listedTwice [7] := keysFound_of_short (by decide +kernel)
  have listed := always (snapshotOf listedTwice) noBlobs listedTwice [7] [] [] _
    (drains_index _ _ listedTwice [7] [] [])
  have distinct := ((listsIndex_iff _ _ found (zeroFound_of_short (by decide)) []).mp listed).1
    { primaryKey := [1]
      live := { value := .inline [], secondaryKeys := SortedMap.insert ∅ [7] [[2], [2]] }
      sequence := 1 } rfl
  revert distinct
  decide

end SwStack.EmbeddedDb
