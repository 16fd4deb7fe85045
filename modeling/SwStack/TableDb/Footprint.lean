import SwStack.Lib.Checked
import SwStack.TableDb.Operations

/-! What a request can touch: the rows under the prefixes of the tables it names, and the entries
in their indexes. Both its answer and its batch are decided there. -/
namespace SwStack.TableDb

open SwStack.Lib SwStack.Types SwStack.EmbeddedDb List

variable {numbers : Numbers}

/-- The names of the indexes of a table. -/
def indexNames (schema : TableSchema) : List Bytes :=
  (indexedFields schema).map (indexNameForField schema)

/-- A row that one of the tables keeps. -/
def OfTable (schema : TableSchema) (key : Bytes) (secondaryKeys : SecondaryKeys) : Prop :=
  rowPrefix schema.tableId <+: key ∧
    ∀ name, (secondaryKeys.find? name).isSome = true → name ∈ indexNames schema

theorem guard_ok [Decidable condition] :
    (if condition then (invalid message >>= rest) else rest ()) = .ok result ↔
      ¬ condition ∧ rest () = .ok result := by
  rw [← check_ok]
  rfl

def Within (schemas : List TableSchema) (operation : RowOperation) : Prop :=
  ∃ schema ∈ schemas, OfTable schema operation.primaryKey operation.secondaryKeys

theorem prefix_rowPrefix (tableId rowId : Bytes) :
    rowPrefix tableId <+: rowPrimaryKey tableId rowId :=
  prefix_append _ _

theorem secondaryKeysForRow_names (schema : TableSchema) (row : JsonObject)
    (found : ((secondaryKeysForRow numbers schema row).find? name).isSome = true) :
    name ∈ indexNames schema := by
  revert name
  unfold secondaryKeysForRow
  apply List.foldlRecOn (indexedFields schema) _ (motive := fun keys : SecondaryKeys =>
    ∀ {name : Bytes}, (keys.find? name).isSome = true → name ∈ indexNames schema)
  · intro name found
    rw [SortedMap.find?_emptyCollection] at found
    exact Bool.noConfusion found
  · intro keys held field member name found
    split at found
    · rw [SortedMap.find?_insert] at found
      split at found
      · rename_i same
        rw [same]
        exact mem_map_of_mem member
      · exact held found
    · exact held found

variable {schema : TableSchema}

theorem within_erase (under : rowPrefix schema.tableId <+: key) : Within [schema] (.erase key) := by
  refine ⟨schema, mem_singleton.mpr rfl, under, fun name found => ?_⟩
  rw [RowOperation.secondaryKeys, SortedMap.find?_emptyCollection] at found
  exact Bool.noConfusion found

theorem within_putRow (under : rowPrefix schema.tableId <+: key) :
    Within [schema] (putRow numbers schema key row) := by
  refine ⟨schema, mem_singleton.mpr rfl, ?_⟩
  unfold putRow
  split
  · exact ⟨under, fun name => secondaryKeysForRow_names schema row⟩
  · exact ⟨under, fun name => secondaryKeysForRow_names schema row⟩

theorem within_of_subset
    (subset : schemas ⊆ more) (within : Within schemas operation) : Within more operation := by
  obtain ⟨schema, member, ofTable⟩ := within
  exact ⟨schema, subset member, ofTable⟩

variable {content : Content}

theorem prefix_scanTable (member : entry ∈ scanTable numbers schema content) :
    rowPrefix schema.tableId <+: entry.primaryKey :=
  Content.scanPrimaryJson_prefix member

theorem putRows_within (ran : putRows numbers schema rows = .ok written) :
    ∀ operation ∈ written.2, Within [schema] operation := by
  refine foldlM_keeps (fun written : List Bytes × RowBatch =>
    ∀ operation ∈ written.2, Within [schema] operation) ?_ ?_ ran
  · exact fun operation member => absurd member not_mem_nil
  · intro state value next _ held stepped
    cases value with
    | object row =>
      dsimp only at stepped
      rw [bind_ok] at stepped
      obtain ⟨-, -, stepped⟩ := stepped
      unfold reject at stepped
      rw [check_ok] at stepped
      obtain ⟨-, same⟩ := stepped
      cases same
      intro operation member
      rcases mem_append.mp member with old | new
      · exact held operation old
      · rw [mem_singleton.mp new]
        exact ⟨schema, mem_singleton.mpr rfl, prefix_rowPrefix _ _,
          fun name => secondaryKeysForRow_names schema row⟩
    | _ => cases stepped

theorem eraseRows_within (before : ∀ operation ∈ written.2, Within [schema] operation)
    (ran : eraseRows schema eraseKeys written = .ok last) :
    ∀ operation ∈ last.2, Within [schema] operation := by
  refine foldlM_keeps (fun written : List Bytes × RowBatch =>
    ∀ operation ∈ written.2, Within [schema] operation) before ?_ ran
  intro state rowId next _ held stepped
  unfold reject at stepped
  rw [check_ok, check_ok] at stepped
  obtain ⟨-, -, same⟩ := stepped
  cases same
  intro operation member
  rcases mem_append.mp member with old | new
  · exact held operation old
  · rw [mem_singleton.mp new]
    exact within_erase (prefix_rowPrefix _ _)

variable {environment : Environment}

theorem migrateRow_within {current next : TableSchema}
    {plan : MigrationPlan} {batch after : RowBatch} {entry : DbJsonEntry}
    (before : ∀ operation ∈ batch, Within [current, next] operation)
    (ran : migrateRow numbers environment current next plan batch entry = .ok after) :
    ∀ operation ∈ after, Within [current, next] operation := by
  rw [migrateRow, bind_ok] at ran
  obtain ⟨row, -, ran⟩ := ran
  rw [bind_ok] at ran
  obtain ⟨migrated, -, same⟩ := ran
  cases same
  intro operation member
  rcases mem_append.mp member with member | new
  · rcases mem_append.mp member with old | moved
    · exact before operation old
    · split at moved
      · rw [mem_singleton.mp moved]
        exact within_of_subset (cons_subset_cons _ (nil_subset _))
          (within_erase (prefix_rowPrefix _ _))
      · exact absurd moved not_mem_nil
  · rw [mem_singleton.mp new]
    exact ⟨next, by simp, prefix_rowPrefix _ _,
      fun name => secondaryKeysForRow_names next migrated⟩

/-- A batch stays inside the tables that its request names. -/
theorem outcome_within {request : Request} {answer : Answer} {batch : RowBatch}
    (ran : outcome numbers environment content request = .ok (answer, batch)) :
    ∀ operation ∈ batch, Within request.schemas operation := by
  have written : ∀ {schema : TableSchema} {rows : List Json} {replace : Bool}
      {eraseKeys : List Bytes}, writeRows numbers schema rows replace eraseKeys content =
        .ok (answer, batch) → ∀ operation ∈ batch, Within [schema] operation := by
    intro schema rows replace eraseKeys ran
    rw [writeRows, bind_ok] at ran
    obtain ⟨-, -, ran⟩ := ran
    dsimp only at ran
    rw [guard_ok, bind_ok] at ran
    obtain ⟨-, put, puts, ran⟩ := ran
    rw [bind_ok] at ran
    obtain ⟨⟨keys, erased⟩, erases, same⟩ := ran
    cases same
    intro operation member
    rcases mem_append.mp member with direct | omitted
    · exact eraseRows_within (putRows_within puts) erases operation direct
    · split at omitted
      · obtain ⟨entry, held, rfl⟩ := mem_map.mp omitted
        exact within_erase (prefix_scanTable (mem_of_mem_filter held))
      · exact absurd omitted not_mem_nil
  cases request with
  | insertRow schema input =>
    rw [outcome, insertRow, bind_ok] at ran
    obtain ⟨-, -, ran⟩ := ran
    rw [bind_ok] at ran
    obtain ⟨row, -, ran⟩ := ran
    dsimp only at ran
    rw [guard_ok] at ran
    obtain ⟨-, same⟩ := ran
    cases same
    intro operation member
    rw [mem_singleton.mp member]
    exact within_putRow (prefix_rowPrefix _ _)
  | getRow schema rowId =>
    rw [outcome, getRow, bind_ok] at ran
    obtain ⟨-, -, ran⟩ := ran
    rw [bind_ok] at ran
    obtain ⟨row, -, same⟩ := ran
    cases same
    exact fun operation member => absurd member not_mem_nil
  | updateRow schema rowId patch =>
    rw [outcome, updateRow, bind_ok] at ran
    obtain ⟨-, -, ran⟩ := ran
    dsimp only at ran
    rw [bind_ok] at ran
    obtain ⟨current, -, ran⟩ := ran
    rw [bind_ok] at ran
    obtain ⟨next, -, same⟩ := ran
    cases same
    intro operation member
    rw [mem_singleton.mp member]
    exact within_putRow (prefix_rowPrefix _ _)
  | deleteRow schema rowId =>
    rw [outcome, deleteRow, bind_ok] at ran
    obtain ⟨-, -, same⟩ := ran
    cases same
    intro operation member
    rw [mem_singleton.mp member]
    exact within_erase (prefix_rowPrefix _ _)
  | queryRows schema parameters =>
    rw [outcome, query, bind_ok] at ran
    obtain ⟨result, -, same⟩ := ran
    cases same
    exact fun operation member => absurd member not_mem_nil
  | clearTable schema =>
    rw [outcome, clearTable, bind_ok] at ran
    obtain ⟨-, -, same⟩ := ran
    cases same
    intro operation member
    obtain ⟨entry, held, rfl⟩ := mem_map.mp member
    exact within_erase (prefix_scanTable held)
  | readRows schema =>
    rw [outcome, readRows, bind_ok] at ran
    obtain ⟨-, -, ran⟩ := ran
    rw [bind_ok] at ran
    obtain ⟨rows, -, same⟩ := ran
    cases same
    exact fun operation member => absurd member not_mem_nil
  | replaceRows schema rows => exact written ran
  | upsertRows schema rows => exact written ran
  | applyRows schema rows eraseKeys => exact written ran
  | migrateTable current next plan =>
    rw [outcome, migrateTable, bind_ok] at ran
    obtain ⟨-, -, ran⟩ := ran
    rw [bind_ok] at ran
    obtain ⟨-, -, ran⟩ := ran
    dsimp only at ran
    rw [guard_ok, bind_ok] at ran
    obtain ⟨-, moved, migrated, same⟩ := ran
    cases same
    exact foldlM_keeps (fun batch : RowBatch =>
      ∀ operation ∈ batch, Within [current, next] operation)
      (fun operation member => absurd member not_mem_nil)
      (fun state entry after _ held stepped => migrateRow_within held stepped) migrated

/-- Two contents that look the same to a table. -/
structure Agree (numbers : Numbers) (schema : TableSchema) (content other : Content) : Prop where
  rows : ∀ key, rowPrefix schema.tableId <+: key → content.find? key = other.find? key
  entries : ∀ name ∈ indexNames schema, ∀ start stop,
    content.scanIndexJson numbers name start stop = other.scanIndexJson numbers name start stop

variable {other : Content}

theorem Agree.getJson (agree : Agree numbers schema content other) (rowId : Bytes) :
    content.getJson numbers (rowPrimaryKey schema.tableId rowId) =
      other.getJson numbers (rowPrimaryKey schema.tableId rowId) := by
  rw [Content.getJson, Content.getJson, agree.rows _ (prefix_rowPrefix _ _)]

theorem Agree.scanTable (agree : Agree numbers schema content other) :
    TableDb.scanTable numbers schema content = TableDb.scanTable numbers schema other :=
  Content.scanPrimaryJson_congr agree.rows

theorem managed_primaryKey (accepted : validateSchema schema = .ok ())
    (managed : schema.rowMode = .managed) : schema.primaryKey = ascii "rowId" := by
  rw [validateSchema] at accepted
  dsimp only at accepted
  rw [guard_ok, guard_ok, guard_ok, guard_ok] at accepted
  obtain ⟨-, -, -, named, -⟩ := accepted
  by_contra other
  exact named ⟨managed, other⟩

/-- A field that can be queried and is not the key has an index. -/
theorem indexNameForField_mem (accepted : validateSchema schema = .ok ())
    (queried : isQueryField schema field = true)
    (other : field ≠ schema.primaryKey) : indexNameForField schema field ∈ indexNames schema := by
  refine mem_map_of_mem ?_
  rw [isQueryField, Bool.or_eq_true, Bool.or_eq_true, Bool.and_eq_true, decide_eq_true_iff,
    decide_eq_true_iff] at queried
  rw [indexedFields, mem_append]
  rcases queried with (key | ⟨managed, builtIn⟩) | indexed
  · exact absurd key other
  · rw [managed_primaryKey accepted managed] at other
    rw [isBuiltInField, Bool.or_eq_true, Bool.or_eq_true, decide_eq_true_iff, decide_eq_true_iff,
      decide_eq_true_iff] at builtIn
    rw [if_pos managed]
    rcases builtIn with (rowId | created) | updated
    · exact absurd rowId other
    · exact Or.inl (by simp [created])
    · exact Or.inl (by simp [updated])
  · rw [findIndexByColumn, find?_isSome] at indexed
    obtain ⟨index, member, same⟩ := indexed
    rw [decide_eq_true_iff] at same
    exact Or.inr (mem_map.mpr ⟨index, member, same⟩)

variable {query : TableQuery}

theorem scanField_queried (accepted : validateQuery schema query = .ok ()) :
    isQueryField schema (scanField schema query) = true := by
  rw [validateQuery] at accepted
  dsimp only at accepted
  rw [guard_ok, guard_ok, guard_ok] at accepted
  obtain ⟨-, -, sorted, -⟩ := accepted
  rw [scanField]
  split
  · rename_i filter found
    exact @List.find?_some _ (fun filter : QueryFilter => isQueryField schema filter.columnId) _ _
      found
  · simpa using sorted

theorem chooseScan_entries (accepted : validateSchema schema = .ok ())
    (valid : validateQuery schema query = .ok ()) (agree : Agree numbers schema content other)
    (chosen : chooseScan numbers schema query = .ok scan) :
    scan.entries numbers content = scan.entries numbers other := by
  have queried := scanField_queried valid
  rw [chooseScan] at chosen
  dsimp only at chosen
  split at chosen
  · split at chosen
    · rename_i filter found
      cases chosen
      exact Content.scanPrimaryJson_congr fun key under =>
        agree.rows key ((prefix_rowPrefix _ _).trans under)
    · cases chosen
      exact Content.scanPrimaryJson_congr agree.rows
  · rename_i notKey
    have named := indexNameForField_mem accepted queried notKey
    split at chosen
    · split at chosen
      · cases chosen
        exact agree.entries _ named _ _
      · cases chosen
    · cases chosen
      exact agree.entries _ named _ _

theorem queryRows_congr (agree : Agree numbers schema content other) :
    queryRows numbers schema query content = queryRows numbers schema query other := by
  rw [queryRows, queryRows]
  cases accepted : validateSchema schema with
  | error status => rfl
  | ok _ =>
    cases valid : validateQuery schema query with
    | error status => rfl
    | ok _ =>
      cases chosen : chooseScan numbers schema query with
      | error status => rfl
      | ok scan =>
        have same := chooseScan_entries accepted valid agree chosen
        change (parseCursor numbers query.cursor >>= _) = (parseCursor numbers query.cursor >>= _)
        rw [same]

/-- What a request answers and writes depends on its own tables only. -/
theorem outcome_congr (agree : ∀ schema ∈ request.schemas, Agree numbers schema content other) :
    outcome numbers environment content request = outcome numbers environment other request := by
  have written : ∀ (schema : TableSchema) (rows : List Json) (replace : Bool)
      (eraseKeys : List Bytes), Agree numbers schema content other →
        writeRows numbers schema rows replace eraseKeys content =
          writeRows numbers schema rows replace eraseKeys other := by
    intro schema rows replace eraseKeys agree
    rw [writeRows, writeRows, agree.scanTable]
  cases request with
  | insertRow schema input =>
    have here := agree schema (mem_singleton.mpr rfl)
    have found : ∀ rowId, content.contains (rowPrimaryKey schema.tableId rowId) =
        other.contains (rowPrimaryKey schema.tableId rowId) := by
      intro rowId
      rw [SortedMap.contains, SortedMap.contains, here.rows _ (prefix_rowPrefix _ _)]
    simp only [outcome, insertRow, found]
  | getRow schema rowId =>
    have here := agree schema (mem_singleton.mpr rfl)
    rw [outcome, outcome, getRow, getRow, here.getJson]
  | updateRow schema rowId patch =>
    have here := agree schema (mem_singleton.mpr rfl)
    simp only [outcome, updateRow, here.getJson]
  | deleteRow schema rowId => rfl
  | queryRows schema parameters =>
    have here := agree schema (mem_singleton.mpr rfl)
    rw [outcome, outcome, query, query, queryRows_congr here]
  | clearTable schema =>
    have here := agree schema (mem_singleton.mpr rfl)
    rw [outcome, outcome, clearTable, clearTable, here.scanTable]
  | readRows schema =>
    have here := agree schema (mem_singleton.mpr rfl)
    rw [outcome, outcome, readRows, readRows, here.scanTable]
  | replaceRows schema rows =>
    exact written schema rows true [] (agree schema (by simp [Request.schemas]))
  | upsertRows schema rows =>
    exact written schema rows false [] (agree schema (by simp [Request.schemas]))
  | applyRows schema rows eraseKeys =>
    exact written schema rows false eraseKeys (agree schema (by simp [Request.schemas]))
  | migrateTable current next plan =>
    have here := agree current (mem_cons_self)
    rw [outcome, outcome, migrateTable, migrateTable, here.scanTable]

end SwStack.TableDb
