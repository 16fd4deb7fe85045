import SwStack.TableDb.Isolation
import SwStack.TableDb.Prepared

/-! A prepared schema answers as the schema it was made of: it accepts the same rows, gives them
the same index entries, and its operations write and read the same. -/
namespace SwStack.TableDb

open SwStack.Lib SwStack.Types SwStack.EmbeddedDb List

variable {numbers : Numbers}

structure Sound (schema : TableSchema) : Prop where
  distinct : (schema.columns.map TableColumn.columnId).Nodup
  supported : ∀ column ∈ schema.columns, ∃ kind, columnType column.type = some kind
  indexed : ∀ index ∈ schema.indexes, ∃ column, findColumn schema index.columnId = some column

theorem forM_ok {α : Type} {check : α → Except DbStatus Unit} {items : List α}
    (passed : items.forM check = .ok ()) : ∀ item ∈ items, check item = .ok () := by
  induction items with
  | nil => exact fun item member => absurd member not_mem_nil
  | cons first rest ih =>
    rw [forM_eq_forM, forM_cons, bind_ok] at passed
    obtain ⟨⟨⟩, here, later⟩ := passed
    intro item member
    rcases mem_cons.mp member with rfl | member
    · exact here
    · exact ih later item member

variable {schema : TableSchema}

theorem sound_of_validateSchema (accepted : validateSchema schema = .ok ()) : Sound schema := by
  rw [validateSchema] at accepted
  dsimp only at accepted
  rw [guard_ok, guard_ok, guard_ok, guard_ok] at accepted
  obtain ⟨-, columns, -, -, accepted⟩ := accepted
  have typed : (¬ (schema.columns.any fun column => !isSupportedType column.type) = true) ∧
      schema.indexes.forM (validateIndex schema) = .ok () := by
    split at accepted
    · rw [bind_ok] at accepted
      obtain ⟨-, -, accepted⟩ := accepted
      rwa [guard_ok] at accepted
    · rwa [guard_ok] at accepted
  refine ⟨?_, ?_, ?_⟩
  · rw [hasDuplicateColumns, hasDuplicates, Bool.or_eq_true, not_or] at columns
    simpa using columns.2
  · intro column member
    by_contra unsupported
    refine typed.1 (any_eq_true.mpr ⟨column, member, ?_⟩)
    cases kind : columnType column.type with
    | some found => exact absurd ⟨found, kind⟩ unsupported
    | none => simp [isSupportedType, kind]
  · intro index member
    have passed := forM_ok typed.2 index member
    rw [validateIndex] at passed
    cases found : findColumn schema index.columnId with
    | some column => exact ⟨column, rfl⟩
    | none =>
      rw [found] at passed
      cases passed

theorem findColumn_mem (found : findColumn schema columnId = some column) :
    column ∈ schema.columns ∧ column.columnId = columnId :=
  ⟨mem_of_find?_eq_some found, by
    simpa using @List.find?_some _ (fun column : TableColumn => decide (column.columnId = columnId))
      _ _ found⟩

theorem find?_emplaceColumn (columns : SortedMap Bytes PreparedColumn) (column : TableColumn)
    (columnId : Bytes) : (emplaceColumn columns column).find? columnId =
      (columns.find? columnId).or
        (if column.columnId = columnId then some (prepareColumn column) else none) := by
  unfold emplaceColumn
  by_cases same : column.columnId = columnId
  · subst same
    rw [if_pos rfl, SortedMap.contains]
    cases held : columns.find? column.columnId with
    | some value =>
      rw [Option.isSome_some, if_pos rfl, held]
      rfl
    | none =>
      rw [Option.isSome_none, if_neg Bool.false_ne_true, SortedMap.find?_insert_self]
      rfl
  · rw [if_neg same, Option.or_none]
    split
    · rfl
    · rw [SortedMap.find?_insert, if_neg (Ne.symm same)]

theorem find?_emplaceColumns (columns : List TableColumn) (start : SortedMap Bytes PreparedColumn)
    (columnId : Bytes) : (columns.foldl emplaceColumn start).find? columnId =
      (start.find? columnId).or
        ((columns.find? fun column => column.columnId = columnId).map prepareColumn) := by
  induction columns generalizing start with
  | nil => rw [foldl_nil, find?_nil, Option.map_none, Option.or_none]
  | cons column columns ih =>
    rw [foldl_cons, ih, find?_emplaceColumn, Option.or_assoc, find?_cons]
    by_cases same : column.columnId = columnId
    · rw [if_pos same, decide_eq_true same]
      rfl
    · rw [if_neg same, decide_eq_false same]
      rfl

variable {prepared : PreparedSchema}

theorem prepareSchema_ok (ran : prepareSchema schema = .ok prepared) :
    validateSchema schema = .ok () ∧ prepared =
      { schema
        rowPrefix := rowPrefix schema.tableId
        columns := schema.columns.foldl emplaceColumn ∅
        indexes := schema.indexes.map (prepareIndex schema) } := by
  rw [prepareSchema, bind_ok] at ran
  obtain ⟨⟨⟩, accepted, same⟩ := ran
  cases same
  exact ⟨accepted, rfl⟩

theorem find?_columns (ran : prepareSchema schema = .ok prepared) (columnId : Bytes) :
    prepared.columns.find? columnId = (findColumn schema columnId).map prepareColumn := by
  obtain ⟨-, rfl⟩ := prepareSchema_ok ran
  rw [find?_emplaceColumns, SortedMap.find?_emptyCollection]
  rfl

variable {kind : ColumnType}

theorem preparedColumnValue_eq (supported : columnType column.type = some kind) (value : Json) :
    preparedColumnValue numbers (prepareColumn column) value =
      exactColumnValue numbers column value := by
  simp only [preparedColumnValue, exactColumnValue, prepareColumn, preparedType, supported]
  cases kind <;> cases value <;> rfl

theorem contains_iff_required (ran : prepareSchema schema = .ok prepared) (present : Bytes → Bool) :
    (prepared.columns.entries.any fun field => field.2.required && !present field.1) =
      schema.columns.any fun column =>
        (column.required || !column.nullable) && !present column.columnId := by
  have distinct := (sound_of_validateSchema (prepareSchema_ok ran).1).distinct
  rw [Bool.eq_iff_iff, any_eq_true, any_eq_true]
  constructor
  · rintro ⟨⟨columnId, field⟩, member, missing⟩
    have found := SortedMap.find?_of_mem member
    rw [find?_columns ran, Option.map_eq_some_iff] at found
    obtain ⟨column, found, rfl⟩ := found
    obtain ⟨held, rfl⟩ := findColumn_mem found
    exact ⟨column, held, missing⟩
  · rintro ⟨column, held, missing⟩
    have first : findColumn schema column.columnId = some column := by
      cases found : findColumn schema column.columnId with
      | none =>
        have other := find?_eq_none.mp found column held
        simp at other
      | some other =>
        obtain ⟨otherHeld, same⟩ := findColumn_mem found
        rw [inj_on_of_nodup_map distinct otherHeld held same]
    have member : (column.columnId, prepareColumn column) ∈ prepared.columns.entries := by
      rw [← SortedMap.find?_eq_some_iff, find?_columns ran, first]
      rfl
    exact ⟨_, member, missing⟩

theorem validateExactRow_prepared (ran : prepareSchema schema = .ok prepared) (row : JsonObject) :
    prepared.validateExactRow numbers row = validateExactRow numbers schema row := by
  have sound := sound_of_validateSchema (prepareSchema_ok ran).1
  have typed : ∀ field : Bytes × Json, ((prepared.columns.find? field.1).any fun column =>
      preparedColumnValue numbers column field.2) =
        (findColumn schema field.1).any fun column => exactColumnValue numbers column field.2 := by
    intro field
    rw [find?_columns ran]
    cases found : findColumn schema field.1 with
    | none => rfl
    | some column =>
      obtain ⟨kind, supported⟩ := sound.supported column (findColumn_mem found).1
      exact preparedColumnValue_eq supported field.2
  have named : prepared.schema = schema := by
    rw [(prepareSchema_ok ran).2]
  rw [PreparedSchema.validateExactRow, TableDb.validateExactRow, named]
  simp only [typed, contains_iff_required ran (JsonObject.contains row)]

theorem columnType_normalizedType
    (supported : columnType type = some kind) : columnType (normalizedType type) = some kind := by
  have fixed : ∀ name ∈ [ascii "string", ascii "integer", ascii "number", ascii "boolean",
      ascii "datetime", ascii "json"], normalizedType name = name := by
    decide
  have named : normalizedType type ∈ [ascii "string", ascii "integer", ascii "number",
      ascii "boolean", ascii "datetime", ascii "json"] := by
    by_contra other
    simp only [mem_cons, not_mem_nil, or_false, not_or] at other
    obtain ⟨string, integer, number, boolean, datetime, json⟩ := other
    rw [columnType, if_neg string, if_neg integer, if_neg number, if_neg boolean, if_neg datetime,
      if_neg json] at supported
    cases supported
  rw [← supported, columnType, columnType, fixed _ named]

theorem encodeIndexValue_normalizedType (supported : columnType type = some kind) (value : Json) :
    encodeIndexValue numbers (normalizedType type) value = encodeIndexValue numbers type value := by
  rw [encodeIndexValue, encodeIndexValue, columnType_normalizedType supported, supported]

/-- An index whose column is not one of the built-in fields of a managed row. -/
def OwnIndex (schema : TableSchema) (index : TableIndex) : Prop :=
  ¬ (schema.rowMode = .managed ∧ isBuiltInField index.columnId = true)

theorem encodeIndexValue_prepareIndex (sound : Sound schema) (member : index ∈ schema.indexes)
    (own : OwnIndex schema index)
    (value : Json) : encodeIndexValue numbers (prepareIndex schema index).type value =
      encodeIndexValue numbers (columnTypeForField schema index.columnId) value := by
  obtain ⟨column, found⟩ := sound.indexed index member
  obtain ⟨kind, supported⟩ := sound.supported column (findColumn_mem found).1
  rw [prepareIndex, columnTypeForField, if_neg own, found, Option.map_some, Option.getD_some]
  exact encodeIndexValue_normalizedType supported value

/-- What the index of a field adds to the entries of a row. -/
def addKey (numbers : Numbers) (schema : TableSchema) (row : JsonObject) (keys : SecondaryKeys)
    (columnId : Bytes) : SecondaryKeys :=
  match secondaryKey numbers schema row columnId with
  | some key => keys.insert (indexNameForField schema columnId) [key]
  | none => keys

/-- What a prepared index adds to them. -/
def addPreparedKey (numbers : Numbers) (schema : TableSchema) (row : JsonObject)
    (keys : SecondaryKeys) (index : PreparedIndex) : SecondaryKeys :=
  match encodeIndexValue numbers index.type (row.value index.column) with
  | some encoded => keys.insert index.name
      [encoded ++ [0x1f] ++ rowSuffix ((row.value schema.primaryKey).toString numbers)]
  | none => keys

theorem addPreparedKey_eq (sound : Sound schema) {index : TableIndex}
    (member : index ∈ schema.indexes) (own : OwnIndex schema index) (row : JsonObject)
    (keys : SecondaryKeys) :
    addPreparedKey numbers schema row keys (prepareIndex schema index) =
      addKey numbers schema row keys index.columnId := by
  have column : (prepareIndex schema index).column = index.columnId := rfl
  have name : (prepareIndex schema index).name = indexNameForField schema index.columnId := rfl
  simp only [addPreparedKey, addKey, secondaryKey, column, name,
    encodeIndexValue_prepareIndex sound member own]
  cases encodeIndexValue numbers (columnTypeForField schema index.columnId)
    (row.value index.columnId) with
  | none => rfl
  | some encoded => rfl

variable {name : Bytes}

theorem find?_addKey_congr {row : JsonObject} {keys other : SecondaryKeys}
    (same : keys.find? name = other.find? name) (columnId : Bytes) :
    (addKey numbers schema row keys columnId).find? name =
      (addKey numbers schema row other columnId).find? name := by
  unfold addKey
  split
  · rw [SortedMap.find?_insert, SortedMap.find?_insert, same]
  · exact same

theorem find?_prepared (numbers : Numbers) (sound : Sound schema) (row : JsonObject)
    {indexes : List TableIndex} (members : ∀ index ∈ indexes, index ∈ schema.indexes)
    (own : ∀ index ∈ indexes, OwnIndex schema index) {keys other : SecondaryKeys}
    (same : keys.find? name = other.find? name) :
    ((indexes.map (prepareIndex schema)).foldl (addPreparedKey numbers schema row) keys).find?
        name =
      ((indexes.map TableIndex.columnId).foldl (addKey numbers schema row) other).find? name := by
  induction indexes generalizing keys other with
  | nil => exact same
  | cons index indexes ih =>
    rw [map_cons, map_cons, foldl_cons, foldl_cons,
      addPreparedKey_eq sound (members index mem_cons_self) (own index mem_cons_self)]
    exact ih (fun index later => members index (mem_cons_of_mem _ later))
      (fun index later => own index (mem_cons_of_mem _ later))
      (find?_addKey_congr same index.columnId)

theorem secondaryKeysForRow_exact
    (ran : prepareSchema schema = .ok prepared) (exact_ : schema.rowMode = .exact)
    (row : JsonObject) :
    prepared.secondaryKeysForRow numbers row = secondaryKeysForRow numbers schema row := by
  obtain ⟨accepted, rfl⟩ := prepareSchema_ok ran
  have own : ∀ index ∈ schema.indexes, OwnIndex schema index := by
    rintro index - ⟨managed, -⟩
    rw [exact_] at managed
    cases managed
  refine SortedMap.ext_find? fun name => ?_
  have agree := find?_prepared numbers (sound_of_validateSchema accepted) row
    (fun _ member => member) own (rfl : (∅ : SecondaryKeys).find? name = _)
  have fields : indexedFields schema = schema.indexes.map TableIndex.columnId := by
    rw [indexedFields, exact_, if_neg TableRowMode.noConfusion, nil_append]
  rw [← fields] at agree
  exact agree

/-- The names of the indexes that every managed table has. -/
def builtInIndexNames (schema : TableSchema) : List Bytes :=
  [indexNameForField schema (ascii "createdAt"), indexNameForField schema (ascii "updatedAt")]

theorem secondaryKeysForRow_managed
    (ran : prepareSchema schema = .ok prepared) (managed : schema.rowMode = .managed)
    (own : ∀ index ∈ schema.indexes, isBuiltInField index.columnId = false) (row : JsonObject)
    (other : name ∉ builtInIndexNames schema) :
    (prepared.secondaryKeysForRow numbers row).find? name =
      (secondaryKeysForRow numbers schema row).find? name := by
  obtain ⟨accepted, rfl⟩ := prepareSchema_ok ran
  have owned : ∀ index ∈ schema.indexes, OwnIndex schema index := by
    rintro index member ⟨-, builtIn⟩
    rw [own index member] at builtIn
    cases builtIn
  rw [builtInIndexNames, mem_cons, mem_singleton, not_or] at other
  have added : ∀ (keys : SecondaryKeys) (columnId : Bytes),
      name ≠ indexNameForField schema columnId →
        (addKey numbers schema row keys columnId).find? name = keys.find? name := by
    intro keys columnId different
    unfold addKey
    split
    · rw [SortedMap.find?_insert, if_neg different]
    · rfl
  have start : (∅ : SecondaryKeys).find? name = ([ascii "createdAt", ascii "updatedAt"].foldl
      (addKey numbers schema row) ∅).find? name := by
    rw [foldl_cons, foldl_cons, foldl_nil, added _ _ other.2, added _ _ other.1]
  have agree := find?_prepared numbers (sound_of_validateSchema accepted) row
    (fun _ member => member) owned start
  rw [← foldl_append] at agree
  have fields : indexedFields schema = [ascii "createdAt", ascii "updatedAt"] ++
      schema.indexes.map TableIndex.columnId := by
    rw [indexedFields, if_pos managed]
  rw [← fields] at agree
  exact agree

/-- A prepared index of a managed table is none of the built-in ones. -/
theorem find?_builtIn_prepared (ran : prepareSchema schema = .ok prepared)
    (managed : schema.rowMode = .managed)
    (own : ∀ index ∈ schema.indexes, isBuiltInField index.columnId = false) (row : JsonObject)
    (builtIn : name ∈ builtInIndexNames schema) :
    (prepared.secondaryKeysForRow numbers row).find? name = none := by
  obtain ⟨-, rfl⟩ := prepareSchema_ok ran
  have builtInName {columnId : Bytes}
      (field : columnId = ascii "createdAt" ∨ columnId = ascii "updatedAt") :
      indexNameForField schema columnId =
        ascii "swtable." ++ schema.tableId ++ ascii ".builtin." ++ columnId := by
    rw [indexNameForField, if_pos ⟨managed, field⟩]
  have apart : ∀ index ∈ schema.indexes, (prepareIndex schema index).name ≠ name := by
    intro index member same
    obtain ⟨found, held⟩ : ∃ found, findIndexByColumn schema index.columnId = some found := by
      rw [findIndexByColumn, ← Option.isSome_iff_exists, find?_isSome]
      exact ⟨index, member, by simp⟩
    have plain : ¬ (schema.rowMode = .managed ∧
        (index.columnId = ascii "createdAt" ∨ index.columnId = ascii "updatedAt")) := by
      rintro ⟨-, field⟩
      have absent := own index member
      rcases field with field | field <;> simp [isBuiltInField, field] at absent
    change indexNameForField schema index.columnId = name at same
    rw [indexNameForField, if_neg plain, held] at same
    simp only [builtInIndexNames, mem_cons, not_mem_nil, or_false] at builtIn
    dsimp only at same
    rcases builtIn with rfl | rfl
    · rw [builtInName (.inl rfl)] at same
      simp only [append_assoc, append_cancel_left_eq] at same
      simp [ascii] at same
    · rw [builtInName (.inr rfl)] at same
      simp only [append_assoc, append_cancel_left_eq] at same
      simp [ascii] at same
  have kept (indexes : List TableIndex) (members : ∀ index ∈ indexes, index ∈ schema.indexes)
      (keys : SecondaryKeys) : ((indexes.map (prepareIndex schema)).foldl
        (addPreparedKey numbers schema row) keys).find? name = keys.find? name := by
    induction indexes generalizing keys with
    | nil => rfl
    | cons index rest ih =>
      rw [map_cons, foldl_cons, ih fun other later => members other (mem_cons_of_mem _ later)]
      unfold addPreparedKey
      split
      · rw [SortedMap.find?_insert, if_neg (apart index (members index mem_cons_self)).symm]
      · rfl
  exact kept schema.indexes (fun _ member => member) ∅

/-- A prepared schema that answers as a schema does. -/
structure AnswersAs (numbers : Numbers) (prepared : PreparedSchema) (schema : TableSchema) :
    Prop where
  validateExactRow : ∀ row,
    prepared.validateExactRow numbers row = TableDb.validateExactRow numbers schema row
  exactKeys : schema.rowMode = .exact → ∀ row,
    prepared.secondaryKeysForRow numbers row = secondaryKeysForRow numbers schema row
  managedKeys : schema.rowMode = .managed →
    (∀ index ∈ schema.indexes, isBuiltInField index.columnId = false) → ∀ row name,
      (prepared.secondaryKeysForRow numbers row).find? name =
        if name ∈ builtInIndexNames schema then none
        else (secondaryKeysForRow numbers schema row).find? name
  managedRefused : schema.rowMode = .managed → ∀ rows replace eraseKeys content,
    TableDb.writeRows numbers schema rows replace eraseKeys content =
        reject "Atomic row batches require an Exact schema" ∧
      prepared.writeRows numbers rows replace eraseKeys content =
        reject "Atomic row batches require an Exact schema"
  writeRows : ∀ rows replace eraseKeys content,
    prepared.writeRows numbers rows replace eraseKeys content =
      TableDb.writeRows numbers schema rows replace eraseKeys content
  readRows : ∀ content, prepared.readRows numbers content = TableDb.readRows numbers schema content
  getRow : ∀ rowId content,
    prepared.getRow numbers rowId content = TableDb.getRow numbers schema rowId content
  queryRows : ∀ query content,
    prepared.queryRows numbers query content = TableDb.queryRows numbers schema query content

theorem putRows_prepared
    (ran : prepareSchema schema = .ok prepared) (exact_ : schema.rowMode = .exact)
    (rows : List Json) : prepared.putRows numbers rows = TableDb.putRows numbers schema rows := by
  have key : ∀ rowId, prepared.rowPrimaryKey rowId = rowPrimaryKey schema.tableId rowId := by
    intro rowId
    rw [(prepareSchema_ok ran).2]
    rfl
  have named : prepared.schema = schema := by
    rw [(prepareSchema_ok ran).2]
  unfold PreparedSchema.putRows TableDb.putRows
  refine congrArg (fun step => List.foldlM step ([], []) rows)
    (funext fun written => funext fun value => ?_)
  cases value with
  | object row =>
    simp only [validateExactRow_prepared ran, secondaryKeysForRow_exact ran exact_, key, named]
  | _ => rfl

theorem writeRows_prepared
    (ran : prepareSchema schema = .ok prepared) (rows : List Json) (replace : Bool)
    (eraseKeys : List Bytes) (content : Content) :
    prepared.writeRows numbers rows replace eraseKeys content =
      TableDb.writeRows numbers schema rows replace eraseKeys content := by
  obtain ⟨accepted, same⟩ := prepareSchema_ok ran
  rw [TableDb.writeRows, accepted, PreparedSchema.writeRows]
  cases mode : schema.rowMode with
  | managed =>
    subst same
    simp only [mode, ne_eq, reduceCtorEq, not_false_eq_true, if_true]
    rfl
  | exact =>
    rw [putRows_prepared ran mode]
    subst same
    simp only [mode, ne_eq, not_true_eq_false, if_false]
    rfl

theorem answersAs_of_prepared
    (ran : prepareSchema schema = .ok prepared) : AnswersAs numbers prepared schema where
  validateExactRow := validateExactRow_prepared ran
  exactKeys exact_ := secondaryKeysForRow_exact ran exact_
  managedKeys managed own row name := by
    split
    · exact find?_builtIn_prepared ran managed own row ‹_›
    · exact secondaryKeysForRow_managed ran managed own row ‹_›
  managedRefused managed rows replace eraseKeys content := by
    have same : prepared.writeRows numbers rows replace eraseKeys content =
        TableDb.writeRows numbers schema rows replace eraseKeys content :=
      writeRows_prepared ran rows replace eraseKeys content
    obtain ⟨accepted, -⟩ := prepareSchema_ok ran
    have refused : TableDb.writeRows numbers schema rows replace eraseKeys content =
        reject "Atomic row batches require an Exact schema" := by
      rw [TableDb.writeRows, accepted, managed]
      rfl
    exact ⟨refused, same.trans refused⟩
  writeRows := writeRows_prepared ran
  readRows content := by
    obtain ⟨accepted, rfl⟩ := prepareSchema_ok ran
    rw [TableDb.readRows, accepted]
    rfl
  getRow rowId content := by
    obtain ⟨accepted, rfl⟩ := prepareSchema_ok ran
    rw [TableDb.getRow, accepted]
    rfl
  queryRows query content := by
    obtain ⟨accepted, rfl⟩ := prepareSchema_ok ran
    rw [TableDb.queryRows, accepted]
    rfl

/-- A schema is refused with the status of its validation, and otherwise its prepared form answers
as it does. -/
theorem prepared_answers (schema : TableSchema) :
    (∀ status, prepareSchema schema = .error status ↔ validateSchema schema = .error status) ∧
      ∀ prepared, prepareSchema schema = .ok prepared → AnswersAs numbers prepared schema := by
  refine ⟨fun status => ?_, fun prepared ran => answersAs_of_prepared ran⟩
  rw [prepareSchema]
  cases validateSchema schema with
  | error failure =>
    constructor
    · intro same
      cases same
      rfl
    · intro same
      cases same
      rfl
  | ok _ =>
    constructor
    · intro same
      cases same
    · intro same
      cases same

/-- A schema without columns, prepared. -/
def barePrepared (tableId : Bytes) : PreparedSchema :=
  { schema := bareTable tableId, rowPrefix := rowPrefix tableId, columns := ∅, indexes := [] }

theorem prepared_answers_price : ∃ prepared, prepareSchema priceTable = .ok prepared ∧
    AnswersAs bitsNumbers prepared priceTable ∧
    prepared.validateExactRow bitsNumbers (priceRow (ascii "k") 7) = .ok () ∧
    (prepared.secondaryKeysForRow bitsNumbers (priceRow (ascii "k") 7)).keys =
      [ascii "swtable.t.idx.byPrice"] :=
  ⟨_, rfl, (prepared_answers priceTable).2 _ rfl, rfl, by decide +kernel⟩

/-- The prepared form of a managed schema leaves out the indexes of the creation and the update. -/
theorem prepared_differs_of_managed :
    ¬ ∀ (numbers : Numbers) (schema : TableSchema) (prepared : PreparedSchema),
      prepareSchema schema = .ok prepared → ∀ row,
        prepared.validateExactRow numbers row = validateExactRow numbers schema row ∧
          prepared.secondaryKeysForRow numbers row = secondaryKeysForRow numbers schema row := by
  intro agrees
  have same := (agrees bitsNumbers (bareTable (ascii "t")) (barePrepared (ascii "t")) rfl []).2
  have left : ((barePrepared (ascii "t")).secondaryKeysForRow bitsNumbers []).contains
      (ascii "swtable.t.builtin.createdAt") = false := rfl
  have right : (secondaryKeysForRow bitsNumbers (bareTable (ascii "t")) []).contains
      (ascii "swtable.t.builtin.createdAt") = true := rfl
  rw [same, right] at left
  exact Bool.noConfusion left

end SwStack.TableDb
