import SwStack.TableDb.Footprint

/-! Prepared schemas. What a schema says of its columns and indexes is looked up once; the rows
are checked and their index entries made from what was found, and the schema is not validated
again. -/
namespace SwStack.TableDb

open SwStack.Lib SwStack.Types SwStack.EmbeddedDb

inductive PreparedType where
  | string
  | integer
  | number
  | boolean
  | json
  deriving DecidableEq

structure PreparedColumn where
  type : PreparedType
  required : Bool
  nullable : Bool

structure PreparedIndex where
  column : Bytes
  type : Bytes
  name : Bytes

structure PreparedSchema where
  schema : TableSchema
  rowPrefix : Bytes
  columns : SortedMap Bytes PreparedColumn
  indexes : List PreparedIndex

def preparedType (type : Bytes) : PreparedType :=
  match columnType type with
  | some .integer => .integer
  | some .number => .number
  | some .boolean => .boolean
  | some .json => .json
  | _ => .string

def prepareColumn (column : TableColumn) : PreparedColumn :=
  { type := preparedType column.type
    required := column.required || !column.nullable
    nullable := column.nullable }

/-- `emplace` keeps a column that is there. -/
def emplaceColumn (columns : SortedMap Bytes PreparedColumn) (column : TableColumn) :
    SortedMap Bytes PreparedColumn :=
  if columns.contains column.columnId then columns
  else columns.insert column.columnId (prepareColumn column)

def prepareIndex (schema : TableSchema) (index : TableIndex) : PreparedIndex :=
  { column := index.columnId
    type := normalizedType (((findColumn schema index.columnId).map TableColumn.type).getD [])
    name := indexNameForField schema index.columnId }

def prepareSchema (schema : TableSchema) : Except DbStatus PreparedSchema := do
  validateSchema schema
  return { schema
           rowPrefix := rowPrefix schema.tableId
           columns := schema.columns.foldl emplaceColumn ∅
           indexes := schema.indexes.map (prepareIndex schema) }

variable (numbers : Numbers)

def preparedColumnValue (column : PreparedColumn) (value : Json) : Bool :=
  if value.isNull then column.nullable
  else
    match column.type, value with
    | .string, .string _ => true
    | .integer, .integer _ => true
    | .integer, .double raw => isExactInteger numbers raw
    | .number, .double _ | .number, .integer _ => true
    | .boolean, .boolean _ => true
    | .json, _ => true
    | _, _ => false

namespace PreparedSchema

def validateExactRow (prepared : PreparedSchema) (input : JsonObject) : Except DbStatus Unit := do
  if !membersFiniteJson 1 input then
    invalid "Exact rows require finite JSON with at most 64 nesting levels"
  if input.any fun field => !((prepared.columns.find? field.1).any fun column =>
      preparedColumnValue numbers column field.2) then
    invalid "Unknown column or exact row type mismatch"
  if prepared.columns.entries.any fun field =>
      field.2.required && !JsonObject.contains input field.1 then
    invalid "Missing required column"
  if !isExactKey (JsonObject.value input prepared.schema.primaryKey) then
    invalid "Exact row key must be a string of 1 to 128 bytes"

def secondaryKeysForRow (prepared : PreparedSchema) (row : JsonObject) : SecondaryKeys :=
  let suffix := rowSuffix ((row.value prepared.schema.primaryKey).toString numbers)
  prepared.indexes.foldl (fun secondary index =>
    match encodeIndexValue numbers index.type (row.value index.column) with
    | some encoded => secondary.insert index.name [encoded ++ [0x1f] ++ suffix]
    | none => secondary) ∅

def rowPrimaryKey (prepared : PreparedSchema) (rowId : Bytes) : Bytes :=
  prepared.rowPrefix ++ SwString.toUtf8 rowId

def scanTable (prepared : PreparedSchema) (content : Content) : List DbJsonEntry :=
  content.scanPrimaryJson numbers prepared.rowPrefix (scanEnd prepared.rowPrefix)

def getRow (prepared : PreparedSchema) (rowId : Bytes) (content : Content) : Outcome := do
  let row ← content.getJson numbers (prepared.rowPrimaryKey (rowKey prepared.schema rowId))
  return (.row row, [])

def readRows (prepared : PreparedSchema) (content : Content) : Outcome := do
  let rows ← (prepared.scanTable numbers content).mapM fun entry =>
    readRow entry "Corrupted table row"
  return (.rows rows, [])

def queryRows (prepared : PreparedSchema) (query : TableQuery) (content : Content) :
    Except DbStatus QueryResult := do
  validateQuery prepared.schema query
  let scan ← chooseScan numbers prepared.schema query
  let cursor ← parseCursor numbers query.cursor
  let plan : QueryPlan :=
    { schema := prepared.schema, query, cursor
      sortBy := querySortField prepared.schema query
      descending := sortDirection query = ascii "desc"
      limit := queryLimit query }
  return plan.page numbers (plan.select numbers (scan.entries numbers content))

def putRows (prepared : PreparedSchema) (rows : List Json) :
    Except DbStatus (List Bytes × RowBatch) :=
  rows.foldlM (fun written value =>
    match value with
    | .object row => do
      prepared.validateExactRow numbers row
      let key := prepared.rowPrimaryKey
        ((JsonObject.value row prepared.schema.primaryKey).toString numbers)
      if key ∈ written.1 then reject "Duplicate primary key within row batch"
      else .ok (written.1 ++ [key], written.2 ++
        [.putJson key row (prepared.secondaryKeysForRow numbers row)])
    | _ => reject "Every row must be an object") ([], [])

def eraseRows (prepared : PreparedSchema) (eraseKeys : List Bytes)
    (written : List Bytes × RowBatch) : Except DbStatus (List Bytes × RowBatch) :=
  eraseKeys.foldlM (fun written rowId =>
    let key := prepared.rowPrimaryKey rowId
    if rowId.isEmpty ∨ 128 < rowId.length then
      reject "Exact row key must be a string of 1 to 128 bytes"
    else if key ∈ written.1 then reject "Duplicate primary key within row batch"
    else .ok (written.1 ++ [key], written.2 ++ [.erase key])) written

def writeRows (prepared : PreparedSchema) (rows : List Json) (replace : Bool)
    (eraseKeys : List Bytes) (content : Content) : Outcome := do
  if prepared.schema.rowMode ≠ .exact then
    invalid "Atomic row batches require an Exact schema"
  let written ← prepared.putRows numbers rows
  let (keys, batch) ← prepared.eraseRows eraseKeys written
  let omitted := (prepared.scanTable numbers content).filter fun entry =>
    entry.primaryKey ∉ keys
  let erased := if replace then omitted.map fun entry => .erase entry.primaryKey else []
  return (.done, batch ++ erased)

end PreparedSchema

end SwStack.TableDb
