import SwStack.TableDb.ExactRows

/-! What a write of exact rows leaves. The scan that reads a table and clears it for a replacement
ends where a byte 0xff follows the prefix, and a stored key ends at the first NUL: a write is exact
as long as no key of the table runs into either. -/
namespace SwStack.TableDb

open SwStack.Lib SwStack.Types SwStack.EmbeddedDb List

variable {content : Content}

theorem find?_write_other (absent : ∀ operation ∈ batch, operation.primaryKey ≠ key) :
    (content.write numbers persistent batch).find? key = content.find? key := by
  induction batch generalizing content with
  | nil => rfl
  | cons operation batch ih =>
    rw [Content.write, foldl_cons]
    refine (ih fun other later => absent other (mem_cons_of_mem _ later)).trans ?_
    rw [Content.find?_apply, if_neg (absent operation mem_cons_self).symm]

/-- Under a key that a batch names there is what its operations agree on. -/
theorem find?_write_agreed (named : ∃ operation ∈ batch, operation.primaryKey = key)
    (agreed : ∀ operation ∈ batch, operation.primaryKey = key →
      Content.stored numbers persistent operation = left) :
    (content.write numbers persistent batch).find? key = left := by
  induction batch generalizing content with
  | nil =>
    obtain ⟨operation, member, -⟩ := named
    exact absurd member not_mem_nil
  | cons operation batch ih =>
    rw [Content.write, foldl_cons]
    by_cases later : ∃ other ∈ batch, other.primaryKey = key
    · exact ih later fun other member => agreed other (mem_cons_of_mem _ member)
    · have absent : ∀ other ∈ batch, other.primaryKey ≠ key := fun other member same =>
        later ⟨other, member, same⟩
      refine (find?_write_other absent).trans ?_
      obtain ⟨other, member, same⟩ := named
      rcases mem_cons.mp member with rfl | member
      · rw [Content.find?_apply, if_pos same.symm]
        exact agreed other mem_cons_self same
      · exact absurd same (absent other member)

section

variable {replace persistent : Bool}

/-- The key of a written row. -/
def keyOf (numbers : Numbers) (schema : TableSchema) (value : Json) : Bytes :=
  rowPrimaryKey schema.tableId (rowIdOf numbers schema (objectOf value))

theorem mem_touchedKeys :
    key ∈ (touched numbers schema rows eraseKeys).map (rowPrimaryKey schema.tableId) ↔
      (∃ value ∈ rows, keyOf numbers schema value = key) ∨
        ∃ rowId ∈ eraseKeys, rowPrimaryKey schema.tableId rowId = key := by
  rw [touched, map_append, mem_append, map_map, mem_map, mem_map]
  rfl

theorem mem_scanTable : entry ∈ scanTable numbers schema content ↔ ∃ row ∈ content.entries,
      (∃ rest, Scanned rest ∧ row.1 = rowPrefix schema.tableId ++ rest) ∧
        entry = { primaryKey := row.1, secondaryKey := []
                  value := recordJson numbers row.2.value } := by
  rw [scanTable, Content.scanPrimaryJson_eq, mem_map]
  constructor
  · rintro ⟨row, held, rfl⟩
    obtain ⟨member, inside⟩ := mem_filter.mp held
    have bounds := inside
    rw [Bool.and_eq_true, decide_eq_true_iff] at bounds
    obtain ⟨rest, same⟩ := Content.prefix_of_inside bounds.1 bounds.2
    rw [← same] at inside
    exact ⟨row, member, ⟨rest, inside_iff.mp inside, same.symm⟩, rfl⟩
  · rintro ⟨row, member, ⟨rest, scanned, same⟩, rfl⟩
    refine ⟨row, mem_filter.mpr ⟨member, ?_⟩, rfl⟩
    rw [same]
    exact inside_iff.mpr scanned

theorem mem_writtenBatch
    (member : operation ∈ writtenBatch numbers schema rows replace eraseKeys content) :
    (∃ value ∈ rows, operation = putExact numbers schema value) ∨
      (∃ rowId ∈ eraseKeys, operation = eraseExact schema rowId) ∨
        ∃ key, operation = .erase key ∧
          key ∉ (touched numbers schema rows eraseKeys).map (rowPrimaryKey schema.tableId) := by
  rcases mem_append.mp member with direct | swept
  · rcases mem_append.mp direct with put | erased
    · obtain ⟨value, held, rfl⟩ := mem_map.mp put
      exact Or.inl ⟨value, held, rfl⟩
    · obtain ⟨rowId, held, rfl⟩ := mem_map.mp erased
      exact Or.inr (Or.inl ⟨rowId, held, rfl⟩)
  · split at swept
    · obtain ⟨entry, held, rfl⟩ := mem_map.mp swept
      have other := (mem_filter.mp held).2
      exact Or.inr (Or.inr ⟨entry.primaryKey, rfl, of_decide_eq_true other⟩)
    · exact absurd swept not_mem_nil

theorem touched_unique (accepts : Accepts numbers schema rows eraseKeys) :
    (∀ left ∈ rows, ∀ right ∈ rows, keyOf numbers schema left = keyOf numbers schema right →
      left = right) ∧
      ∀ value ∈ rows, ∀ rowId ∈ eraseKeys,
        keyOf numbers schema value ≠ rowPrimaryKey schema.tableId rowId := by
  have apart := (nodup_keys schema.tableId).mpr accepts.distinct
  rw [touched, map_append, map_map, nodup_append] at apart
  obtain ⟨distinct, -, separate⟩ := apart
  refine ⟨fun left leftIn right rightIn same =>
    inj_on_of_nodup_map distinct leftIn rightIn same, fun value member rowId erased => ?_⟩
  exact separate _ (mem_map_of_mem member) _ (mem_map_of_mem erased)

theorem find?_written_row (accepts : Accepts numbers schema rows eraseKeys)
    (member : value ∈ rows) :
    (content.write numbers persistent
      (writtenBatch numbers schema rows replace eraseKeys content)).find?
        (keyOf numbers schema value) =
          Content.stored numbers persistent (putExact numbers schema value) := by
  obtain ⟨unique, separate⟩ := touched_unique accepts
  refine find?_write_agreed ⟨putExact numbers schema value, ?_, rfl⟩ ?_
  · exact mem_append_left _ (mem_append_left _ (mem_map_of_mem member))
  · intro operation held same
    rcases mem_writtenBatch held with
      ⟨other, otherIn, rfl⟩ | ⟨rowId, erased, rfl⟩ | ⟨key, rfl, free⟩
    · rw [unique other otherIn value member same]
    · exact absurd same.symm (separate value member rowId erased)
    · exact absurd (mem_touchedKeys.mpr (Or.inl ⟨value, member, same.symm⟩)) free

theorem find?_written_erased (accepts : Accepts numbers schema rows eraseKeys)
    (member : rowId ∈ eraseKeys) :
    (content.write numbers persistent
      (writtenBatch numbers schema rows replace eraseKeys content)).find?
        (rowPrimaryKey schema.tableId rowId) = none := by
  obtain ⟨-, separate⟩ := touched_unique accepts
  refine find?_write_agreed ⟨eraseExact schema rowId, ?_, rfl⟩ ?_
  · exact mem_append_left _ (mem_append_right _ (mem_map_of_mem member))
  · intro operation held same
    rcases mem_writtenBatch held with
      ⟨other, otherIn, rfl⟩ | ⟨other, erased, rfl⟩ | ⟨key, rfl, free⟩
    · exact absurd same (separate other otherIn rowId member)
    · rfl
    · rfl

/-- A key that the request does not name keeps its row, unless a replacement sweeps it. -/
theorem find?_written_other
    (free : key ∉ (touched numbers schema rows eraseKeys).map (rowPrimaryKey schema.tableId))
    (unswept : replace = true → ∀ rest, key = rowPrefix schema.tableId ++ rest → ¬ Scanned rest) :
    (content.write numbers persistent
      (writtenBatch numbers schema rows replace eraseKeys content)).find? key =
        content.find? key := by
  rw [mem_touchedKeys, not_or] at free
  refine find?_write_other fun operation held same => ?_
  rcases mem_append.mp held with direct | swept
  · rcases mem_append.mp direct with put | erased
    · obtain ⟨value, member, rfl⟩ := mem_map.mp put
      exact free.1 ⟨value, member, same⟩
    · obtain ⟨rowId, member, rfl⟩ := mem_map.mp erased
      exact free.2 ⟨rowId, member, same⟩
  · split at swept
    · rename_i replaces
      obtain ⟨entry, member, rfl⟩ := mem_map.mp swept
      obtain ⟨row, -, ⟨rest, scanned, shape⟩, rfl⟩ :=
        mem_scanTable.mp (mem_of_mem_filter member)
      exact unswept replaces rest (same ▸ shape) scanned
    · exact absurd swept not_mem_nil

theorem find?_written_swept (replaces : replace = true) (scanned : Scanned rest)
    (free : rowPrefix schema.tableId ++ rest ∉
      (touched numbers schema rows eraseKeys).map (rowPrimaryKey schema.tableId)) :
    (content.write numbers persistent
      (writtenBatch numbers schema rows replace eraseKeys content)).find?
        (rowPrefix schema.tableId ++ rest) = none := by
  cases held : content.find? (rowPrefix schema.tableId ++ rest) with
  | none =>
    by_cases named : ∃ operation ∈ writtenBatch numbers schema rows replace eraseKeys content,
        operation.primaryKey = rowPrefix schema.tableId ++ rest
    · refine find?_write_agreed named fun operation member same => ?_
      rcases mem_writtenBatch member with ⟨value, valueIn, rfl⟩ | ⟨rowId, -, rfl⟩ | ⟨key, rfl, -⟩
      · exact absurd (mem_touchedKeys.mpr (Or.inl ⟨value, valueIn, same⟩)) free
      · rfl
      · rfl
    · exact (find?_write_other fun operation member same => named ⟨operation, member, same⟩).trans
        held
  | some row =>
    have swept : (⟨rowPrefix schema.tableId ++ rest, [], recordJson numbers row.value⟩ :
        DbJsonEntry) ∈ scanTable numbers schema content :=
      mem_scanTable.mpr ⟨_, SortedMap.find?_eq_some_iff.mp held, ⟨rest, scanned, rfl⟩, rfl⟩
    refine find?_write_agreed ⟨.erase (rowPrefix schema.tableId ++ rest), ?_, rfl⟩ ?_
    · refine mem_append_right _ ?_
      rw [if_pos replaces]
      exact mem_map.mpr ⟨_, mem_filter.mpr ⟨swept, decide_eq_true free⟩, rfl⟩
    · intro operation member same
      rcases mem_writtenBatch member with ⟨value, valueIn, rfl⟩ | ⟨rowId, -, rfl⟩ | ⟨key, rfl, -⟩
      · exact absurd (mem_touchedKeys.mpr (Or.inl ⟨value, valueIn, same⟩)) free
      · rfl
      · rfl

end

section

/-- The ids of stored rows come in the order of their keys. -/
theorem find?_tableRows (state : TableState numbers schema content) :
    (tableRows numbers schema content).find? rowId = some row ↔
      ∃ entry ∈ content.entries, rowPrefix schema.tableId <+: entry.1 ∧
        StoredRow numbers schema entry row ∧ rowId = rowIdOf numbers schema row := by
  have member : ∀ other : Bytes × JsonObject, other ∈ ((content.entries.filter fun entry =>
      (rowPrefix schema.tableId).isPrefixOf entry.1).filterMap fun entry =>
        (recordJson numbers entry.2.value).map fun row => (rowIdOf numbers schema row, row)) ↔
      ∃ entry ∈ content.entries, rowPrefix schema.tableId <+: entry.1 ∧
        StoredRow numbers schema entry other.2 ∧ other.1 = rowIdOf numbers schema other.2 := by
    intro other
    rw [mem_filterMap]
    constructor
    · rintro ⟨entry, held, found⟩
      obtain ⟨inside, under⟩ := mem_filter.mp held
      have under := isPrefixOf_iff_prefix.mp under
      rw [Option.map_eq_some_iff] at found
      obtain ⟨row, json, rfl⟩ := found
      obtain ⟨same, stored⟩ := state entry inside under
      have equal := stored.json
      rw [json] at equal
      cases equal
      exact ⟨entry, inside, under, stored, rfl⟩
    · rintro ⟨entry, inside, under, stored, same⟩
      refine ⟨entry, mem_filter.mpr ⟨inside, isPrefixOf_iff_prefix.mpr under⟩, ?_⟩
      rw [stored.json, Option.map_some, ← same]
  have ordered : ((content.entries.filter fun entry =>
      (rowPrefix schema.tableId).isPrefixOf entry.1).filterMap fun entry =>
        (recordJson numbers entry.2.value).map fun row =>
          (rowIdOf numbers schema row, row)).Pairwise fun left right => left.1 < right.1 := by
    rw [pairwise_filterMap]
    refine (content.ordered.filter _).imp_of_mem fun {left right} leftIn rightIn less => ?_
    intro leftRow leftFound rightRow rightFound
    obtain ⟨leftHeld, leftUnder⟩ := mem_filter.mp leftIn
    obtain ⟨rightHeld, rightUnder⟩ := mem_filter.mp rightIn
    obtain ⟨leftStored, leftSame⟩ := state left leftHeld <| isPrefixOf_iff_prefix.mp leftUnder
    obtain ⟨rightStored, rightSame⟩ :=
      state right rightHeld <| isPrefixOf_iff_prefix.mp rightUnder
    rw [leftSame.json] at leftFound
    rw [rightSame.json] at rightFound
    cases leftFound
    cases rightFound
    by_contra above
    rw [leftSame.key, rightSame.key] at less
    exact absurd less (not_lt.mpr (rowPrimaryKey_mono (not_lt.mp above)))
  rw [SortedMap.find?_eq_some_iff, tableRows, SortedMap.ofList_of_ordered ordered]
  exact member (rowId, row)

theorem tableRows_of_stored (state : TableState numbers schema content)
    (held : content.find? key = some kept) (under : rowPrefix schema.tableId <+: key) :
    ∃ row, StoredRow numbers schema (key, kept) row ∧
      (tableRows numbers schema content).find? (rowIdOf numbers schema row) = some row := by
  have inside := SortedMap.find?_eq_some_iff.mp held
  obtain ⟨row, stored⟩ := state _ inside under
  exact ⟨row, stored, (find?_tableRows state).mpr ⟨_, inside, under, stored, rfl⟩⟩

theorem stored_of_tableRows (state : TableState numbers schema content)
    (held : (tableRows numbers schema content).find? rowId = some row) :
    ∃ kept, content.find? (rowPrimaryKey schema.tableId rowId) = some kept ∧
      recordJson numbers kept.value = some row := by
  obtain ⟨entry, inside, -, stored, rfl⟩ := (find?_tableRows state).mp held
  exact ⟨entry.2, stored.key ▸ SortedMap.find?_of_mem inside, stored.json⟩

theorem tableRows_unique (state : TableState numbers schema content)
    (leftHeld : (tableRows numbers schema content).find? left = some leftRow)
    (rightHeld : (tableRows numbers schema content).find? right = some rightRow)
    (same : rowPrimaryKey schema.tableId left = rowPrimaryKey schema.tableId right) :
    left = right := by
  obtain ⟨leftEntry, leftIn, -, leftStored, rfl⟩ := (find?_tableRows state).mp leftHeld
  obtain ⟨rightEntry, rightIn, -, rightStored, rfl⟩ := (find?_tableRows state).mp rightHeld
  have entries := SortedMap.entry_unique leftIn rightIn
    (leftStored.key.trans (same.trans rightStored.key.symm))
  subst entries
  have rows := leftStored.json
  rw [rightStored.json] at rows
  cases rows
  rfl

end

section

variable {rows : List Json} {old : SortedMap Bytes JsonObject}

theorem find?_insertRows (table : SortedMap Bytes JsonObject) (rowId : Bytes) :
    ((∀ value ∈ rows, rowIdOf numbers schema (objectOf value) ≠ rowId) →
      ((rows.map objectOf).foldl (fun table row => table.insert (rowIdOf numbers schema row) row)
        table).find? rowId = table.find? rowId) ∧
    ((rows.map fun value => rowIdOf numbers schema (objectOf value)).Nodup →
      ∀ value ∈ rows, rowIdOf numbers schema (objectOf value) = rowId →
        ((rows.map objectOf).foldl (fun table row => table.insert (rowIdOf numbers schema row) row)
          table).find? rowId = some (objectOf value)) := by
  induction rows generalizing table with
  | nil => exact ⟨fun _ => rfl, fun _ value member => absurd member not_mem_nil⟩
  | cons first rest ih =>
    rw [map_cons, foldl_cons]
    obtain ⟨other, named⟩ := ih (table.insert (rowIdOf numbers schema (objectOf first))
      (objectOf first))
    constructor
    · intro different
      rw [other fun value later => different value (mem_cons_of_mem _ later),
        SortedMap.find?_insert, if_neg (different first mem_cons_self).symm]
    · intro distinct value member same
      obtain ⟨fresh, later⟩ := nodup_cons.mp distinct
      rcases mem_cons.mp member with rfl | member
      · rw [other, ← same, SortedMap.find?_insert_self]
        intro next held equal
        exact fresh (mem_map.mpr ⟨next, held, equal.trans same.symm⟩)
      · exact named later value member same

theorem find?_specified_row (accepts : Accepts numbers schema rows mode.eraseKeys)
    (member : value ∈ rows) : (specified numbers schema rows mode old).find?
      (rowIdOf numbers schema (objectOf value)) = some (objectOf value) := by
  have distinct := List.Nodup.of_map _ accepts.distinct
  rw [touched, nodup_append] at distinct
  exact (find?_insertRows _ _).2 distinct.1 value member rfl

theorem find?_specified_other
    (other : ∀ value ∈ rows, rowIdOf numbers schema (objectOf value) ≠ rowId) :
    (specified numbers schema rows mode old).find? rowId =
      if mode.replaces ∨ rowId ∈ mode.eraseKeys then none else old.find? rowId := by
  rw [specified, (find?_insertRows _ rowId).1 other]
  cases mode.replaces with
  | true => rfl
  | false =>
    rw [if_neg Bool.false_ne_true, SortedMap.find?_filter]
    by_cases erased : rowId ∈ mode.eraseKeys
    · rw [if_pos (Or.inr erased)]
      cases old.find? rowId <;> simp [Option.filter, erased]
    · rw [if_neg (by simpa using erased)]
      cases old.find? rowId <;> simp [Option.filter, erased]

/-- What is asked for is a row of the request, or a row of before that is left alone. -/
theorem specified_cases (accepts : Accepts numbers schema rows mode.eraseKeys)
    (held : (specified numbers schema rows mode old).find? rowId = some row) :
    (∃ value ∈ rows, rowId = rowIdOf numbers schema (objectOf value) ∧ row = objectOf value) ∨
      (mode.replaces = false ∧ rowId ∉ touched numbers schema rows mode.eraseKeys ∧
        old.find? rowId = some row) := by
  by_cases written : ∃ value ∈ rows, rowIdOf numbers schema (objectOf value) = rowId
  · obtain ⟨value, member, rfl⟩ := written
    rw [find?_specified_row accepts member] at held
    cases held
    exact Or.inl ⟨value, member, rfl, rfl⟩
  · have other : ∀ value ∈ rows, rowIdOf numbers schema (objectOf value) ≠ rowId :=
      fun value member same => written ⟨value, member, same⟩
    rw [find?_specified_other other] at held
    split at held
    · cases held
    · rename_i kept
      rw [not_or, Bool.not_eq_true] at kept
      refine Or.inr ⟨kept.1, ?_, held⟩
      rw [touched, mem_append, not_or]
      refine ⟨fun member => ?_, kept.2⟩
      obtain ⟨value, valueIn, same⟩ := mem_map.mp member
      exact other value valueIn same

end

/-- The keys that the scan of a table visits. -/
def scannedKeys (numbers : Numbers) (schema : TableSchema) (content : Content) : List Bytes :=
  (scanTable numbers schema content).map DbJsonEntry.primaryKey

/-- The object under a key. -/
def jsonAt (numbers : Numbers) (content : Content) (key : Bytes) : Option JsonObject :=
  (content.find? key).bind fun row => recordJson numbers row.value

/-- The keys that the rows of a table go under. -/
def keysOf (schema : TableSchema) (table : SortedMap Bytes JsonObject) : List Bytes :=
  table.keys.map (rowPrimaryKey schema.tableId)

section

theorem mem_scannedKeys : key ∈ scannedKeys numbers schema content ↔
    (content.find? key).isSome ∧ ∃ rest, Scanned rest ∧ key = rowPrefix schema.tableId ++ rest := by
  rw [scannedKeys, mem_map]
  constructor
  · rintro ⟨entry, held, rfl⟩
    obtain ⟨row, inside, shape, rfl⟩ := mem_scanTable.mp held
    exact ⟨by rw [SortedMap.find?_of_mem inside]; rfl, shape⟩
  · rintro ⟨present, shape⟩
    obtain ⟨row, found⟩ := Option.isSome_iff_exists.mp present
    exact ⟨_, mem_scanTable.mpr ⟨_, SortedMap.find?_eq_some_iff.mp found, shape, rfl⟩, rfl⟩

theorem scannedKeys_ordered : (scannedKeys numbers schema content).Pairwise (· < ·) := by
  rw [scannedKeys, scanTable, Content.scanPrimaryJson_eq, map_map, pairwise_map]
  exact content.ordered.filter _

theorem mapM_readRow {entries : List DbJsonEntry} :
    entries.mapM (fun entry => readRow entry message) = .ok values ↔
      entries.map DbJsonEntry.value = values.map some := by
  induction entries generalizing values with
  | nil =>
    rw [mapM_nil, map_nil]
    constructor
    · intro same
      cases same
      rfl
    · intro same
      rw [map_eq_nil_iff.mp same.symm]
      rfl
  | cons entry entries ih =>
    rw [mapM_cons, bind_ok, map_cons]
    unfold readRow
    constructor
    · rintro ⟨row, here, rest⟩
      rw [bind_ok] at rest
      obtain ⟨others, later, same⟩ := rest
      cases same
      rw [map_cons, ih.mp later]
      cases found : entry.value with
      | none =>
        rw [found] at here
        cases here
      | some other =>
        rw [found] at here
        cases here
        rfl
    · intro same
      cases values with
      | nil => cases same
      | cons row others =>
        rw [map_cons, List.cons.injEq] at same
        refine ⟨row, by rw [same.1], ?_⟩
        rw [bind_ok]
        exact ⟨others, ih.mpr same.2, rfl⟩

theorem readRows_ok (sound : validateSchema schema = .ok ()) {values : List JsonObject} :
    readRows numbers schema content = .ok (.rows values, []) ↔
      (scannedKeys numbers schema content).map (jsonAt numbers content) = values.map some := by
  have looked : (scanTable numbers schema content).map DbJsonEntry.value =
      (scannedKeys numbers schema content).map (jsonAt numbers content) := by
    rw [scannedKeys, map_map]
    refine map_congr_left fun entry held => ?_
    obtain ⟨row, inside, -, rfl⟩ := mem_scanTable.mp held
    rw [Function.comp_apply, jsonAt, SortedMap.find?_of_mem inside]
    rfl
  rw [readRows, bind_ok, ← looked]
  constructor
  · rintro ⟨⟨⟩, -, ran⟩
    rw [bind_ok] at ran
    obtain ⟨rows, read, same⟩ := ran
    cases same
    exact mapM_readRow.mp read
  · intro read
    refine ⟨(), sound, ?_⟩
    rw [bind_ok]
    exact ⟨values, mapM_readRow.mpr read, rfl⟩

end

theorem keysOf_ordered (schema : TableSchema) (table : SortedMap Bytes JsonObject) :
    (keysOf schema table).Pairwise (· ≤ ·) := by
  rw [keysOf, SortedMap.keys, map_map, pairwise_map]
  exact table.ordered.imp fun less => rowPrimaryKey_mono less.le

theorem mem_keysOf : key ∈ keysOf schema table ↔
      ∃ rowId row, table.find? rowId = some row ∧ rowPrimaryKey schema.tableId rowId = key := by
  rw [keysOf, mem_map]
  constructor
  · rintro ⟨rowId, member, rfl⟩
    obtain ⟨row, found⟩ := Option.isSome_iff_exists.mp (SortedMap.mem_keys.mp member)
    exact ⟨rowId, row, found, rfl⟩
  · rintro ⟨rowId, row, found, rfl⟩
    exact ⟨rowId, SortedMap.mem_keys.mpr (by rw [found]; rfl), rfl⟩

theorem eq_of_subset_of_length {left right : List Bytes} (strict : left.Pairwise (· < ·))
    (weak : right.Pairwise (· ≤ ·)) (subset : left ⊆ right) (short : right.length ≤ left.length) :
    left = right := by
  have distinct : left.Nodup := strict.imp fun less => ne_of_lt less
  have permuted := (subperm_of_subset distinct subset).perm_of_length_le short
  exact permuted.eq_of_pairwise (fun _ _ _ _ => le_antisymm) (strict.imp le_of_lt) weak

/-- A table is read back as a map when its keys are the scanned ones, each with its row. -/
theorem readRows_table {schema : TableSchema} (sound : validateSchema schema = .ok ())
    (within : ∀ key ∈ scannedKeys numbers schema content, key ∈ keysOf schema table) :
    readRows numbers schema content = .ok (.rows table.values, []) ↔
      (keysOf schema table).Nodup ∧ ∀ rowId row, table.find? rowId = some row →
        rowPrimaryKey schema.tableId rowId ∈ scannedKeys numbers schema content ∧
          jsonAt numbers content (rowPrimaryKey schema.tableId rowId) = some row := by
  have pairs : ∀ {keys : List Bytes}, keys = keysOf schema table →
      (keys.map (jsonAt numbers content) = table.values.map some ↔
        ∀ rowId row, table.find? rowId = some row →
          jsonAt numbers content (rowPrimaryKey schema.tableId rowId) = some row) := by
    rintro keys rfl
    rw [keysOf, SortedMap.keys, SortedMap.values, map_map, map_map, map_map,
      map_inj_left]
    constructor
    · exact fun each rowId row found => each (rowId, row) (SortedMap.find?_eq_some_iff.mp found)
    · exact fun each entry member => each entry.1 entry.2 (SortedMap.find?_of_mem member)
  rw [readRows_ok sound]
  constructor
  · intro read
    have length := congrArg List.length read
    rw [length_map, length_map, SortedMap.values, length_map] at length
    have same : scannedKeys numbers schema content = keysOf schema table := by
      refine eq_of_subset_of_length scannedKeys_ordered (keysOf_ordered schema table) within ?_
      rw [keysOf, SortedMap.keys, length_map, length_map, length]
    refine ⟨same ▸ scannedKeys_ordered.imp fun less => ne_of_lt less, fun rowId row found => ?_⟩
    refine ⟨?_, (pairs same).mp read rowId row found⟩
    rw [same]
    exact mem_keysOf.mpr ⟨rowId, row, found, rfl⟩
  · rintro ⟨distinct, each⟩
    have same : scannedKeys numbers schema content = keysOf schema table := by
      refine eq_of_subset_of_length scannedKeys_ordered (keysOf_ordered schema table) within ?_
      refine (subperm_of_subset distinct fun key member => ?_).length_le
      obtain ⟨rowId, row, found, rfl⟩ := mem_keysOf.mp member
      exact (each rowId row found).1
    exact (pairs same).mpr fun rowId row found => (each rowId row found).2

end SwStack.TableDb
