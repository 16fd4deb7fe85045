import SwStack.TableDb.Query

/-! The operations of a table database. Each reads what the database below holds and answers with
a batch for it, which is written whole or not at all. -/
namespace SwStack.TableDb

open SwStack.Lib SwStack.Types SwStack.EmbeddedDb

inductive Answer where
  | done
  | row (row : JsonObject)
  | rows (rows : List JsonObject)
  | page (result : QueryResult)

/-- The outcome of an operation before its batch is written. -/
abbrev Outcome := Except DbStatus (Answer × RowBatch)

variable (numbers : Numbers)

/-- The key of a row as callers name it: managed ids are trimmed. -/
def rowKey (schema : TableSchema) (rowId : Bytes) : Bytes :=
  if schema.rowMode = .exact then rowId else SwString.trimmed rowId

def putRow (schema : TableSchema) (key : Bytes) (row : JsonObject) : RowOperation :=
  if schema.rowMode = .exact then .putJson key row (secondaryKeysForRow numbers schema row)
  else .put key (jsonBytes numbers row) (secondaryKeysForRow numbers schema row)

def scanTable (schema : TableSchema) (content : Content) : List DbJsonEntry :=
  content.scanPrimaryJson numbers (rowPrefix schema.tableId) (scanEnd (rowPrefix schema.tableId))

def insertRow (environment : Environment) (schema : TableSchema) (input : JsonObject)
    (content : Content) : Outcome := do
  validateSchema schema
  let row ← normalizeRowForCreate numbers environment schema input
  let key := rowPrimaryKey schema.tableId ((row.value schema.primaryKey).toString numbers)
  if schema.rowMode = .exact ∧ content.contains key then invalid "Primary key already exists"
  return (.row row, [putRow numbers schema key row])

def getRow (schema : TableSchema) (rowId : Bytes) (content : Content) : Outcome := do
  validateSchema schema
  let row ← content.getJson numbers (rowPrimaryKey schema.tableId (rowKey schema rowId))
  return (.row row, [])

def updateRow (environment : Environment) (schema : TableSchema) (rowId : Bytes)
    (patch : JsonObject) (content : Content) : Outcome := do
  validateSchema schema
  let key := rowPrimaryKey schema.tableId (rowKey schema rowId)
  let current ← content.getJson numbers key
  let next ← normalizeRowForUpdate numbers environment schema current patch
  return (.row next, [putRow numbers schema key next])

def deleteRow (schema : TableSchema) (rowId : Bytes) : Outcome := do
  validateSchema schema
  return (.done, [.erase (rowPrimaryKey schema.tableId (rowKey schema rowId))])

def clearTable (schema : TableSchema) (content : Content) : Outcome := do
  validateSchema schema
  return (.done, (scanTable numbers schema content).map fun entry => .erase entry.primaryKey)

def query (schema : TableSchema) (query : TableQuery) (content : Content) : Outcome := do
  let result ← queryRows numbers schema query content
  return (.page result, [])

def readRow (entry : DbJsonEntry) (message : String) : Except DbStatus JsonObject :=
  match entry.value with
  | some row => .ok row
  | none => .error ⟨.corruption, message⟩

def readRows (schema : TableSchema) (content : Content) : Outcome := do
  validateSchema schema
  let rows ← (scanTable numbers schema content).mapM fun entry =>
    readRow entry "Corrupted table row"
  return (.rows rows, [])

/-- The batch of the rows to write, whose keys differ. -/
def putRows (schema : TableSchema) (rows : List Json) :
    Except DbStatus (List Bytes × RowBatch) :=
  rows.foldlM (fun written value =>
    match value with
    | .object row => do
      validateExactRow numbers schema row
      let key := rowPrimaryKey schema.tableId ((JsonObject.value row schema.primaryKey).toString numbers)
      if key ∈ written.1 then reject "Duplicate primary key within row batch"
      else .ok (written.1 ++ [key], written.2 ++
        [.putJson key row (secondaryKeysForRow numbers schema row)])
    | _ => reject "Every row must be an object") ([], [])

def eraseRows (schema : TableSchema) (eraseKeys : List Bytes)
    (written : List Bytes × RowBatch) : Except DbStatus (List Bytes × RowBatch) :=
  eraseKeys.foldlM (fun written rowId =>
    let key := rowPrimaryKey schema.tableId rowId
    if rowId.isEmpty ∨ 128 < rowId.length then
      reject "Exact row key must be a string of 1 to 128 bytes"
    else if key ∈ written.1 then reject "Duplicate primary key within row batch"
    else .ok (written.1 ++ [key], written.2 ++ [.erase key])) written

def writeRows (schema : TableSchema) (rows : List Json) (replace : Bool)
    (eraseKeys : List Bytes) (content : Content) : Outcome := do
  validateSchema schema
  if schema.rowMode ≠ .exact then invalid "Atomic row batches require an Exact schema"
  let written ← putRows numbers schema rows
  let (keys, batch) ← eraseRows schema eraseKeys written
  let omitted := (scanTable numbers schema content).filter fun entry => entry.primaryKey ∉ keys
  let erased := if replace then omitted.map fun entry => .erase entry.primaryKey else []
  return (.done, batch ++ erased)

def replaceRows (schema : TableSchema) (rows : List Json) (content : Content) : Outcome :=
  writeRows numbers schema rows true [] content

def upsertRows (schema : TableSchema) (rows : List Json) (content : Content) : Outcome :=
  writeRows numbers schema rows false [] content

def applyRows (schema : TableSchema) (rows : List Json) (eraseKeys : List Bytes)
    (content : Content) : Outcome :=
  writeRows numbers schema rows false eraseKeys content

def migrateRow (environment : Environment) (current next : TableSchema) (plan : MigrationPlan)
    (batch : RowBatch) (entry : DbJsonEntry) : Except DbStatus RowBatch := do
  let row ← readRow entry "Corrupted row during migration"
  let migrated ← buildMigratedRow numbers environment current next plan row
  let rowId := (row.value (ascii "rowId")).toString numbers
  let moved := if current.tableId ≠ next.tableId then
    [.erase (rowPrimaryKey current.tableId rowId)] else []
  return batch ++ moved ++ [.put (rowPrimaryKey next.tableId rowId)
    (jsonBytes numbers migrated) (secondaryKeysForRow numbers next migrated)]

def migrateTable (environment : Environment) (current next : TableSchema) (plan : MigrationPlan)
    (content : Content) : Outcome := do
  validateSchema current
  validateSchema next
  if current.rowMode ≠ .managed ∨ next.rowMode ≠ .managed then
    invalid "Exact schemas require explicit atomic row replacement for migration"
  let batch ← (scanTable numbers current content).foldlM
    (migrateRow numbers environment current next plan) []
  return (.done, batch)

inductive Request where
  | insertRow (schema : TableSchema) (input : JsonObject)
  | getRow (schema : TableSchema) (rowId : Bytes)
  | updateRow (schema : TableSchema) (rowId : Bytes) (patch : JsonObject)
  | deleteRow (schema : TableSchema) (rowId : Bytes)
  | queryRows (schema : TableSchema) (query : TableQuery)
  | clearTable (schema : TableSchema)
  | readRows (schema : TableSchema)
  | replaceRows (schema : TableSchema) (rows : List Json)
  | upsertRows (schema : TableSchema) (rows : List Json)
  | applyRows (schema : TableSchema) (rows : List Json) (eraseKeys : List Bytes)
  | migrateTable (current next : TableSchema) (plan : MigrationPlan)

/-- The schemas that a request names. -/
def Request.schemas : Request → List TableSchema
  | insertRow schema _ | getRow schema _ | updateRow schema _ _ | deleteRow schema _
  | queryRows schema _ | clearTable schema | readRows schema | replaceRows schema _
  | upsertRows schema _ | applyRows schema _ _ => [schema]
  | migrateTable current next _ => [current, next]

def outcome (environment : Environment) (content : Content) : Request → Outcome
  | .insertRow schema input => insertRow numbers environment schema input content
  | .getRow schema rowId => getRow numbers schema rowId content
  | .updateRow schema rowId patch => updateRow numbers environment schema rowId patch content
  | .deleteRow schema rowId => deleteRow schema rowId
  | .queryRows schema parameters => query numbers schema parameters content
  | .clearTable schema => clearTable numbers schema content
  | .readRows schema => readRows numbers schema content
  | .replaceRows schema rows => replaceRows numbers schema rows content
  | .upsertRows schema rows => upsertRows numbers schema rows content
  | .applyRows schema rows eraseKeys => applyRows numbers schema rows eraseKeys content
  | .migrateTable current next plan => migrateTable numbers environment current next plan content

/-- An open database. -/
structure Database where
  persistent : Bool
  content : Content

/-- Answers a request. An empty batch is not written, and a write that fails writes nothing. -/
def execute (environment : Environment) (request : Request) (db : Database) :
    Except DbStatus Answer × Database :=
  match outcome numbers environment db.content request with
  | .error status => (.error status, db)
  | .ok (answer, []) => (.ok answer, db)
  | .ok (answer, batch) =>
    match environment.failure with
    | some status => (.error status, db)
    | none => (.ok answer, { db with content := db.content.write numbers db.persistent batch })

/-- Answers requests one after another, each with what it takes from outside. -/
def run (db : Database) : List (Environment × Request) → List (Except DbStatus Answer) × Database
  | [] => ([], db)
  | (environment, request) :: rest =>
    let (answer, next) := execute numbers environment request db
    let (answers, last) := run next rest
    (answer :: answers, last)

end SwStack.TableDb
