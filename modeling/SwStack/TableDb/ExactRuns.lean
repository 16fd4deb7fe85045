import SwStack.TableDb.ExactWrites
import SwStack.TableDb.Isolation

/-! The states that requests leave an exact table in. A row gets there from an insertion, an update
or a write of rows, always under its own key, and no other request stores anything there. -/
namespace SwStack.TableDb

open SwStack.Lib SwStack.Types SwStack.EmbeddedDb List

variable {numbers : Numbers} {schema other : TableSchema} {content : Content} {db : Database}
  {request : Environment × Request}

/-- A row with the fields of a patch. -/
def overlaid (current patch : JsonObject) : JsonObject :=
  patch.foldl (fun merged field => JsonObject.insert merged field.1 field.2) current

/-- The rows that a request asks an exact table to hold. -/
def givenRows (numbers : Numbers) (content : Content) : Request → List JsonObject
  | .insertRow _ input => [input]
  | .updateRow schema rowId patch =>
    match content.getJson numbers (rowPrimaryKey schema.tableId (rowKey schema rowId)) with
    | .ok current => [overlaid current patch]
    | .error _ => []
  | .replaceRows _ rows | .upsertRows _ rows | .applyRows _ rows _ => rows.map objectOf
  | _ => []

/-- Schemas of one table, which may have other columns and indexes. -/
def SameTable (schema other : TableSchema) : Prop :=
  other.tableId = schema.tableId ∧ other.rowMode = schema.rowMode ∧
    other.primaryKey = schema.primaryKey

/-- On disk the text of a row stands for the row. -/
def ReadsBack (numbers : Numbers) (db : Database) (row : JsonObject) : Prop :=
  db.persistent = true → parseJsonObject numbers (jsonBytes numbers row) = some row

/-- A request to the table, or to tables apart from it. -/
structure Tends (numbers : Numbers) (schema : TableSchema) (db : Database)
    (request : Environment × Request) : Prop where
  concerns : ∀ other ∈ request.2.schemas, SameTable schema other ∨ Apart schema other
  readsBack : ∀ other ∈ request.2.schemas, SameTable schema other →
    ∀ row ∈ givenRows numbers db.content request.2, ReadsBack numbers db row

/-- A patch that an update accepts leaves the key as it is. -/
theorem mergeExactPatch_ok (ran : mergeExactPatch schema current patch = .ok merged) :
    merged = overlaid current patch ∧
      (JsonObject.value merged schema.primaryKey = JsonObject.value current schema.primaryKey ∨
        (JsonObject.value merged schema.primaryKey).equal
          (JsonObject.value current schema.primaryKey) = true) := by
  have walk : ∀ {start : JsonObject}, patch.foldlM (fun merged field =>
      if field.1 = schema.primaryKey ∧
          !field.2.equal (JsonObject.value current schema.primaryKey) then
        reject "A row update cannot change its primary key"
      else .ok (JsonObject.insert merged field.1 field.2)) start = .ok merged →
      (JsonObject.value start schema.primaryKey = JsonObject.value current schema.primaryKey ∨
        (JsonObject.value start schema.primaryKey).equal
          (JsonObject.value current schema.primaryKey) = true) →
      merged = overlaid start patch ∧
        (JsonObject.value merged schema.primaryKey = JsonObject.value current schema.primaryKey ∨
          (JsonObject.value merged schema.primaryKey).equal
            (JsonObject.value current schema.primaryKey) = true) := by
    clear ran
    induction patch with
    | nil =>
      intro start ran kept
      cases ran
      exact ⟨rfl, kept⟩
    | cons field patch ih =>
      intro start ran kept
      rw [foldlM_cons, bind_ok] at ran
      obtain ⟨next, stepped, ran⟩ := ran
      unfold reject at stepped
      rw [check_ok] at stepped
      obtain ⟨same, stepped⟩ := stepped
      cases stepped
      refine ih ran ?_
      rw [value_insert]
      split
      · rename_i own
        exact Or.inr (by simpa [own] using same)
      · exact kept
  exact walk ran (Or.inl rfl)

theorem isExactKey_of_valid (valid : validateExactRow numbers schema row = .ok ()) :
    ∃ key, JsonObject.value row schema.primaryKey = .string key := by
  rw [validateExactRow] at valid
  dsimp only at valid
  rw [guard_ok, guard_ok, guard_ok] at valid
  obtain ⟨-, -, -, valid⟩ := valid
  cases held : JsonObject.value row schema.primaryKey with
  | string key => exact ⟨key, rfl⟩
  | _ =>
    rw [held] at valid
    cases valid

theorem rowIdOf_merged (ran : mergeExactPatch schema current patch = .ok merged)
    (valid : validateExactRow numbers schema merged = .ok ()) :
    rowIdOf numbers schema merged = rowIdOf numbers schema current := by
  obtain ⟨key, string⟩ := isExactKey_of_valid valid
  obtain ⟨-, same | equal⟩ := mergeExactPatch_ok ran
  · rw [rowIdOf, rowIdOf, same]
  · rw [string] at equal
    rw [rowIdOf, rowIdOf, string]
    cases held : JsonObject.value current schema.primaryKey with
    | string other =>
      rw [held, Json.equal, decide_eq_true_iff] at equal
      rw [equal]
    | _ =>
      rw [held] at equal
      cases equal

theorem normalizeExactRow_ok (ran : normalizeExactRow numbers schema input = .ok row) :
    validateExactRow numbers schema row = .ok () ∧ row = input := by
  rw [normalizeExactRow, bind_ok] at ran
  obtain ⟨_, valid, same⟩ := ran
  cases same
  exact ⟨valid, rfl⟩

theorem getJson_ok (found : content.getJson numbers key = .ok current) :
    ∃ kept, content.find? key = some kept ∧ recordJson numbers kept.value = some current := by
  rw [Content.getJson] at found
  split at found
  · cases found
  · rename_i kept held
    split at found
    · cases found
    · rename_i json
      cases found
      exact ⟨kept, held, json⟩

/-- Whether a request can put rows into a table. -/
def Request.puts : Request → Bool
  | insertRow _ _ | updateRow _ _ _ | replaceRows _ _ | upsertRows _ _ | applyRows _ _ _
  | migrateTable _ _ _ => true
  | getRow _ _ | deleteRow _ _ | queryRows _ _ | clearTable _ | readRows _ => false

theorem puts_of_stored (ran : outcome numbers request.1 content request.2 = .ok (answer, batch))
    (member : operation ∈ batch)
    (stored : Content.stored numbers persistent operation = some row) : request.2.puts = true := by
  obtain ⟨environment, request⟩ := request
  cases request with
  | deleteRow other rowId =>
    rw [outcome, deleteRow, bind_ok] at ran
    obtain ⟨-, -, same⟩ := ran
    cases same
    rw [mem_singleton.mp member] at stored
    cases stored
  | clearTable other =>
    rw [outcome, clearTable, bind_ok] at ran
    obtain ⟨-, -, same⟩ := ran
    cases same
    obtain ⟨entry, -, rfl⟩ := mem_map.mp member
    cases stored
  | getRow other rowId =>
    rw [outcome, getRow, bind_ok] at ran
    obtain ⟨-, -, ran⟩ := ran
    rw [bind_ok] at ran
    obtain ⟨row, -, same⟩ := ran
    cases same
    exact absurd member not_mem_nil
  | queryRows other parameters =>
    rw [outcome, query, bind_ok] at ran
    obtain ⟨result, -, same⟩ := ran
    cases same
    exact absurd member not_mem_nil
  | readRows other =>
    rw [outcome, readRows, bind_ok] at ran
    obtain ⟨-, -, ran⟩ := ran
    rw [bind_ok] at ran
    obtain ⟨rows, -, same⟩ := ran
    cases same
    exact absurd member not_mem_nil
  | _ => rfl

/-- What a request to an exact table stores: a row that it gives, under the key of that row. -/
theorem exact_stores (exactMode : schema.rowMode = .exact) (state : TableState numbers schema content)
    (named : schema ∈ request.2.schemas)
    (ran : outcome numbers request.1 content request.2 = .ok (answer, batch)) :
    ∀ operation ∈ batch, ∀ row, Content.stored numbers persistent operation = some row →
      ∃ given ∈ givenRows numbers content request.2, operation =
        .putJson (rowPrimaryKey schema.tableId (rowIdOf numbers schema given)) given
          (secondaryKeysForRow numbers schema given) := by
  intro operation member row stored
  have putting := puts_of_stored ran member stored
  obtain ⟨environment, request⟩ := request
  have written : ∀ {rows : List Json} {replace : Bool} {eraseKeys : List Bytes},
      writeRows numbers schema rows replace eraseKeys content = .ok (answer, batch) →
        ∃ given ∈ rows.map objectOf, operation =
          .putJson (rowPrimaryKey schema.tableId (rowIdOf numbers schema given)) given
            (secondaryKeysForRow numbers schema given) := by
    intro rows replace eraseKeys ran
    obtain ⟨-, same⟩ := writeRows_ok.mp ran
    cases same
    rcases mem_writtenBatch member with ⟨value, valueIn, rfl⟩ | ⟨rowId, -, rfl⟩ | ⟨key, rfl, -⟩
    · exact ⟨objectOf value, mem_map_of_mem valueIn, rfl⟩
    · cases stored
    · cases stored
  cases request with
  | insertRow other input =>
    cases mem_singleton.mp named
    rw [outcome, insertRow, bind_ok] at ran
    obtain ⟨-, -, ran⟩ := ran
    rw [bind_ok] at ran
    obtain ⟨row, created, ran⟩ := ran
    dsimp only at ran
    rw [guard_ok] at ran
    obtain ⟨-, same⟩ := ran
    cases same
    rw [normalizeRowForCreate, if_pos exactMode] at created
    obtain ⟨-, rfl⟩ := normalizeExactRow_ok created
    rw [mem_singleton.mp member, putRow, if_pos exactMode]
    exact ⟨row, mem_singleton.mpr rfl, rfl⟩
  | updateRow other rowId patch =>
    cases mem_singleton.mp named
    rw [outcome, updateRow, bind_ok] at ran
    obtain ⟨-, -, ran⟩ := ran
    dsimp only at ran
    rw [bind_ok] at ran
    obtain ⟨current, found, ran⟩ := ran
    rw [bind_ok] at ran
    obtain ⟨next, updated, same⟩ := ran
    cases same
    rw [normalizeRowForUpdate, if_pos exactMode, bind_ok] at updated
    obtain ⟨merged, merges, updated⟩ := updated
    obtain ⟨valid, rfl⟩ := normalizeExactRow_ok updated
    obtain ⟨kept, held, json⟩ := getJson_ok found
    obtain ⟨stored, own⟩ := state _ (SortedMap.find?_eq_some_iff.mp held) (prefix_rowPrefix _ _)
    have same := own.json
    rw [json] at same
    cases same
    rw [mem_singleton.mp member, putRow, if_pos exactMode]
    refine ⟨next, ?_, by rw [rowIdOf_merged merges valid, ← own.key]⟩
    rw [givenRows, found, (mergeExactPatch_ok merges).1]
    exact mem_singleton.mpr rfl
  | replaceRows other rows =>
    cases mem_singleton.mp named
    exact written ran
  | upsertRows other rows =>
    cases mem_singleton.mp named
    exact written ran
  | applyRows other rows eraseKeys =>
    cases mem_singleton.mp named
    exact written ran
  | migrateTable current next plan =>
    -- Only managed tables are migrated.
    rw [outcome, migrateTable, bind_ok] at ran
    obtain ⟨-, -, ran⟩ := ran
    rw [bind_ok] at ran
    obtain ⟨-, -, ran⟩ := ran
    dsimp only at ran
    rw [guard_ok, not_or, not_not, not_not] at ran
    obtain ⟨⟨managed, nextManaged⟩, -⟩ := ran
    rcases mem_cons.mp named with rfl | named
    · rw [managed] at exactMode
      cases exactMode
    · rw [mem_singleton.mp named, nextManaged] at exactMode
      cases exactMode
  | _ => cases putting

theorem tableState_congr (same : SameTable schema other) :
    TableState numbers other content ↔ TableState numbers schema content := by
  obtain ⟨tableId, -, primaryKey⟩ := same
  have rows : ∀ entry row, StoredRow numbers other entry row ↔ StoredRow numbers schema entry row := by
    intro entry row
    have ids : rowIdOf numbers other row = rowIdOf numbers schema row := by
      rw [rowIdOf, rowIdOf, primaryKey]
    constructor
    · exact fun stored => ⟨stored.json, by rw [stored.key, tableId, ids]⟩
    · exact fun stored => ⟨stored.json, by rw [stored.key, tableId, ids]⟩
  rw [TableState, TableState, tableId]
  simp only [rows]

theorem execute_tableState (exactMode : schema.rowMode = .exact)
    (state : TableState numbers schema db.content) (tends : Tends numbers schema db request) :
    TableState numbers schema (execute numbers request.1 request.2 db).2.content := by
  refine execute_entries _ state fun answer batch ran operation member row stored under => ?_
  obtain ⟨other, named, otherUnder, -⟩ := outcome_within ran operation member
  rcases tends.concerns other named with same | ⟨notLeft, notRight, -⟩
  · obtain ⟨given, givenIn, rfl⟩ := exact_stores (same.2.1.trans exactMode)
      ((tableState_congr same).mpr state) named ran operation member row stored
    refine ⟨given, ?_, ?_⟩
    · cases stored
      dsimp only
      split
      · rename_i persistent
        exact tends.readsBack other named same given givenIn persistent
      · rfl
    · rw [RowOperation.primaryKey, same.1, rowIdOf, rowIdOf, same.2.2]
  · rcases prefix_or_prefix_of_prefix under otherUnder with left | right
    · exact absurd left notLeft
    · exact absurd right notRight

/-- The databases that requests to the table and to tables apart from it make of an empty one. -/
abbrev ExactRun (numbers : Numbers) (schema : TableSchema) (persistent : Bool) :
    Database → Prop :=
  RequestRun numbers (Tends numbers schema) persistent

/-- The rows of an exact table are under their own keys after every run of requests. -/
theorem tableState_of_run (exactMode : schema.rowMode = .exact)
    (reached : ExactRun numbers schema persistent db) : TableState numbers schema db.content := by
  induction reached with
  | refl => exact fun _ member => absurd member not_mem_nil
  | next _ tends stepped ih =>
    cases stepped
    exact execute_tableState exactMode ih tends

end SwStack.TableDb
