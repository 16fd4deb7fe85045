import SwStack.EmbeddedDb.Content

/-! Table schemas, what is accepted as one, and the keys and index names made of their ids. -/
namespace SwStack.TableDb

open SwStack.Lib SwStack.Types SwStack.EmbeddedDb

structure TableColumn where
  columnId : Bytes
  type : Bytes
  required : Bool
  nullable : Bool
  defaultValue : Json

structure TableIndex where
  indexId : Bytes
  columnId : Bytes
  deriving DecidableEq

inductive TableRowMode where
  | managed
  | exact
  deriving DecidableEq

structure TableSchema where
  tableId : Bytes
  columns : List TableColumn
  indexes : List TableIndex
  rowMode : TableRowMode
  primaryKey : Bytes

inductive ColumnType where
  | string
  | integer
  | number
  | boolean
  | datetime
  | json
  deriving DecidableEq

def normalizedType (type : Bytes) : Bytes := SwString.toLower (SwString.trimmed type)

/-- The type that a normalized name stands for, when it is supported. -/
def columnType (type : Bytes) : Option ColumnType :=
  let normalized := normalizedType type
  if normalized = ascii "string" then some .string
  else if normalized = ascii "integer" then some .integer
  else if normalized = ascii "number" then some .number
  else if normalized = ascii "boolean" then some .boolean
  else if normalized = ascii "datetime" then some .datetime
  else if normalized = ascii "json" then some .json
  else none

def isSupportedType (type : Bytes) : Bool := (columnType type).isSome

def requiresStringPrefixSupport (type : Bytes) : Bool :=
  columnType type = some .string || columnType type = some .datetime

def isBuiltInField (columnId : Bytes) : Bool :=
  columnId = ascii "rowId" || columnId = ascii "createdAt" || columnId = ascii "updatedAt"

def findColumn (schema : TableSchema) (columnId : Bytes) : Option TableColumn :=
  schema.columns.find? fun column => column.columnId = columnId

def findIndexByColumn (schema : TableSchema) (columnId : Bytes) : Option TableIndex :=
  schema.indexes.find? fun index => index.columnId = columnId

/-- The type of a field, empty when there is no such field. -/
def columnTypeForField (schema : TableSchema) (columnId : Bytes) : Bytes :=
  if schema.rowMode = .managed ∧ isBuiltInField columnId then ascii "string"
  else ((findColumn schema columnId).map TableColumn.type).getD []

/-- Whether an id is blank or comes twice. -/
def hasDuplicates (ids : List Bytes) : Bool :=
  ids.any (fun columnId => (SwString.trimmed columnId).isEmpty) || !decide ids.Nodup

def hasDuplicateColumns (schema : TableSchema) : Bool :=
  hasDuplicates (schema.columns.map TableColumn.columnId)

/-- What stands for an index: its id, or its column without one. -/
def TableIndex.suffix (index : TableIndex) : Bytes :=
  if (SwString.trimmed index.indexId).isEmpty then index.columnId else index.indexId

def hasDuplicateIndexes (schema : TableSchema) : Bool :=
  hasDuplicates (schema.indexes.map TableIndex.suffix)

def invalid (message : String) : Except DbStatus Unit := .error ⟨.invalidArgument, message⟩

def validateExactSchema (schema : TableSchema) : Except DbStatus Unit :=
  if 0x2f ∈ schema.tableId ∨ 0 ∈ schema.tableId then
    invalid "Exact tableId cannot contain slash or NUL"
  else
    match findColumn schema schema.primaryKey with
    | none => invalid "Exact primaryKey must name a string column"
    | some column =>
      if columnType column.type ≠ some .string then
        invalid "Exact primaryKey must name a string column"
      else .ok ()

def validateIndex (schema : TableSchema) (index : TableIndex) : Except DbStatus Unit :=
  match findColumn schema index.columnId with
  | none => invalid "Index references unknown column"
  | some column =>
    if columnType column.type = some .json then invalid "JSON columns cannot be indexed"
    else .ok ()

def validateSchema (schema : TableSchema) : Except DbStatus Unit := do
  if (SwString.trimmed schema.tableId).isEmpty then invalid "tableId is required"
  if hasDuplicateColumns schema then invalid "Duplicate column ids are not allowed"
  if hasDuplicateIndexes schema then invalid "Duplicate index ids are not allowed"
  if schema.rowMode = .managed ∧ schema.primaryKey ≠ ascii "rowId" then
    invalid "Managed rows require the rowId primary key"
  if schema.rowMode = .exact then validateExactSchema schema
  if schema.columns.any fun column => !isSupportedType column.type then
    invalid "Unsupported column type"
  schema.indexes.forM (validateIndex schema)

def rowPrefix (tableId : Bytes) : Bytes :=
  SwString.toUtf8 (ascii "table/" ++ tableId ++ ascii "/row/")

def rowPrimaryKey (tableId rowId : Bytes) : Bytes := rowPrefix tableId ++ SwString.toUtf8 rowId

/-- Where the scan of the rows under a prefix ends. -/
def scanEnd (start : Bytes) : Bytes := start ++ [0xff]

/-- The index behind a field, or an empty name. -/
def indexNameForField (schema : TableSchema) (columnId : Bytes) : Bytes :=
  if schema.rowMode = .managed ∧ (columnId = ascii "createdAt" ∨ columnId = ascii "updatedAt") then
    ascii "swtable." ++ schema.tableId ++ ascii ".builtin." ++ columnId
  else
    match findIndexByColumn schema columnId with
    | some index => ascii "swtable." ++ schema.tableId ++ ascii ".idx." ++ index.suffix
    | none => []

/-- The bits of a double, moved so that their order is the order of the numbers. -/
def orderedBits (value : Double) : UInt64 :=
  if value.isNegative then ~~~value.bits else value.bits ^^^ 0x8000000000000000

variable (numbers : Numbers)

def encodeIndexValue (type : Bytes) (value : Json) : Option Bytes :=
  if value.isNull then some (ascii "~")
  else
    match columnType type with
    | some .string | some .datetime => some (toHex (value.toString numbers))
    | some .integer =>
      some (hexWidth64 ((value.toInteger numbers).toUInt64 ^^^ 0x8000000000000000))
    | some .number => some (hexWidth64 (orderedBits (value.toDouble numbers)))
    | some .boolean => some (if value.toBool then ascii "1" else ascii "0")
    | some .json | none => none

def rowSuffix (rowId : Bytes) : Bytes := toHex (SwString.toUtf8 rowId)

/-- The entry of a row in the index of a field, if its value can be encoded. -/
def secondaryKey (schema : TableSchema) (row : JsonObject) (columnId : Bytes) : Option Bytes :=
  (encodeIndexValue numbers (columnTypeForField schema columnId) (row.value columnId)).map
    fun encoded =>
      encoded ++ [0x1f] ++ rowSuffix ((row.value schema.primaryKey).toString numbers)

/-- The fields that have an index. -/
def indexedFields (schema : TableSchema) : List Bytes :=
  (if schema.rowMode = .managed then [ascii "createdAt", ascii "updatedAt"] else []) ++
    schema.indexes.map TableIndex.columnId

def secondaryKeysForRow (schema : TableSchema) (row : JsonObject) : SecondaryKeys :=
  (indexedFields schema).foldl (fun keys columnId =>
    match secondaryKey numbers schema row columnId with
    | some key => keys.insert (indexNameForField schema columnId) [key]
    | none => keys) ∅

end SwStack.TableDb

/-! Rows as they are stored: coerced for managed tables, checked as they are for exact ones, and
rebuilt by a migration. -/
namespace SwStack.TableDb

open SwStack.Lib SwStack.Types SwStack.EmbeddedDb

/-- What an operation takes from outside: the clock, the next generated id, and the status that
the database below answers a write with, when it fails. -/
structure Environment where
  nowIso : Bytes
  nextRowId : Bytes
  failure : Option DbStatus

variable (numbers : Numbers)

def reject {α : Type} (message : String) : Except DbStatus α := .error ⟨.invalidArgument, message⟩

def coerceInteger (input : Json) : Except DbStatus Json :=
  if input.isInt numbers ∨ input.isBool then .ok (.integer (input.toInteger numbers))
  else
    match input with
    | .double raw =>
      if !numbers.isWhole raw then reject "Integer value is not exact"
      else .ok (.integer (numbers.toInteger raw))
    | .string text =>
      match numbers.toLongLong (SwString.trimmed text) with
      | some value => .ok (.integer value)
      | none => reject "Invalid integer string"
    | _ => reject "Value cannot be coerced to integer"

def coerceNumber (input : Json) : Except DbStatus Json :=
  if input.isDouble ∨ input.isInt numbers ∨ input.isBool then .ok (.double (input.toDouble numbers))
  else
    match input with
    | .string text =>
      match numbers.toDouble (SwString.trimmed text) with
      | some value => .ok (.double value)
      | none => reject "Invalid number string"
    | _ => reject "Value cannot be coerced to number"

def coerceBoolean (input : Json) : Except DbStatus Json :=
  if input.isBool ∨ input.isInt numbers ∨ input.isDouble then .ok (.boolean input.toBool)
  else
    match input with
    | .string text =>
      let lowered := SwString.toLower (SwString.trimmed text)
      if lowered = ascii "true" ∨ lowered = ascii "1" then .ok (.boolean true)
      else if lowered = ascii "false" ∨ lowered = ascii "0" then .ok (.boolean false)
      else reject "Value cannot be coerced to boolean"
    | _ => reject "Value cannot be coerced to boolean"

def coerceString : Json → Except DbStatus Json
  | .object _ | .array _ => reject "Object/array cannot be coerced to string"
  | input => .ok (.string (input.toString numbers))

def coerceDatetime : Json → Except DbStatus Json
  | .string text =>
    let value := SwString.trimmed text
    if value.isEmpty then reject "Datetime cannot be empty" else .ok (.string value)
  | _ => reject "Datetime must be a string"

def coerceValue (type : Bytes) (input : Json) (nullable : Bool) : Except DbStatus Json :=
  if input.isNull then if !nullable then reject "Null value is not allowed" else .ok .null
  else
    match columnType type with
    | some .string => coerceString numbers input
    | some .integer => coerceInteger numbers input
    | some .number => coerceNumber numbers input
    | some .boolean => coerceBoolean numbers input
    | some .datetime => coerceDatetime input
    | some .json => .ok input
    | none => reject "Unsupported column type"

mutual

/-- Finite, and at most 64 levels deep. -/
def finiteJson (depth : Nat) : Json → Bool
  | .double value => depth ≤ 64 && value.isFinite
  | .object members => depth ≤ 64 && membersFiniteJson (depth + 1) members
  | .array elements => depth ≤ 64 && elementsFiniteJson (depth + 1) elements
  | _ => depth ≤ 64

def membersFiniteJson (depth : Nat) : List (Bytes × Json) → Bool
  | [] => true
  | (_, value) :: rest => finiteJson depth value && membersFiniteJson depth rest

def elementsFiniteJson (depth : Nat) : List Json → Bool
  | [] => true
  | value :: rest => finiteJson depth value && elementsFiniteJson depth rest

end

/-- A whole number that a 64-bit integer holds. -/
def isExactInteger (value : Double) : Bool :=
  let lower := numbers.ofInteger Int64.minValue
  numbers.isWhole value && !value.isNan && lower.signed ≤ value.signed &&
    value.signed < -lower.signed

def exactColumnValue (column : TableColumn) (value : Json) : Bool :=
  if value.isNull then column.nullable
  else
    match columnType column.type, value with
    | some .integer, .integer _ => true
    | some .integer, .double raw => isExactInteger numbers raw
    | some .string, .string _ | some .datetime, .string _ => true
    | some .number, .double _ | some .number, .integer _ => true
    | some .boolean, .boolean _ => true
    | some .json, _ => true
    | _, _ => false

/-- The key of an exact row: a string of 1 to 128 bytes. -/
def isExactKey : Json → Bool
  | .string key => !key.isEmpty && key.length ≤ 128
  | _ => false

def validateExactRow (schema : TableSchema) (input : JsonObject) : Except DbStatus Unit := do
  if !membersFiniteJson 1 input then
    invalid "Exact rows require finite JSON with at most 64 nesting levels"
  if input.any fun field => !((findColumn schema field.1).any fun column =>
      exactColumnValue numbers column field.2) then
    invalid "Unknown column or exact row type mismatch"
  if schema.columns.any fun column =>
      (column.required || !column.nullable) && !JsonObject.contains input column.columnId then
    invalid "Missing required column"
  if !isExactKey (JsonObject.value input schema.primaryKey) then
    invalid "Exact row key must be a string of 1 to 128 bytes"

def normalizeExactRow (schema : TableSchema) (input : JsonObject) : Except DbStatus JsonObject := do
  validateExactRow numbers schema input
  return input

/-- The value of a column: given, the default, or null when it may be. -/
def columnValue (column : TableColumn) (input : JsonObject) (missing : String) :
    Except DbStatus Json :=
  if JsonObject.contains input column.columnId then
    coerceValue numbers column.type (JsonObject.value input column.columnId) column.nullable
  else if !column.defaultValue.isNull then
    coerceValue numbers column.type column.defaultValue column.nullable
  else if !column.nullable ∨ column.required then reject missing
  else .ok .null

def fillColumns (input : JsonObject) (missing : String) (columns : List TableColumn)
    (row : JsonObject) : Except DbStatus JsonObject :=
  columns.foldlM (fun row column => do
    let value ← columnValue numbers column input missing
    return JsonObject.insert row column.columnId value) row

def isUnknownField (schema : TableSchema) (field : Bytes × Json) : Bool :=
  isBuiltInField field.1 || (findColumn schema field.1).isNone

def normalizeRowForCreate (environment : Environment) (schema : TableSchema) (input : JsonObject) :
    Except DbStatus JsonObject := do
  if schema.rowMode = .exact then normalizeExactRow numbers schema input
  else
    if input.any (isUnknownField schema) then
      invalid "Unknown or reserved column in row payload"
    let row ← fillColumns numbers input "Missing required column" schema.columns []
    let row := JsonObject.insert row (ascii "rowId") (.string environment.nextRowId)
    let row := JsonObject.insert row (ascii "createdAt") (.string environment.nowIso)
    return JsonObject.insert row (ascii "updatedAt") (.string environment.nowIso)

/-- A patch over an exact row, whose key it cannot change. -/
def mergeExactPatch (schema : TableSchema) (current patch : JsonObject) :
    Except DbStatus JsonObject :=
  patch.foldlM (fun merged field =>
    if field.1 = schema.primaryKey ∧
        !field.2.equal (JsonObject.value current schema.primaryKey) then
      reject "A row update cannot change its primary key"
    else .ok (JsonObject.insert merged field.1 field.2)) current

def mergeManagedPatch (schema : TableSchema) (current patch : JsonObject) :
    Except DbStatus JsonObject :=
  patch.foldlM (fun merged field =>
    if isBuiltInField field.1 then reject "Unknown or reserved column in row patch"
    else
      match findColumn schema field.1 with
      | none => reject "Unknown or reserved column in row patch"
      | some column => do
        let value ← coerceValue numbers column.type field.2 column.nullable
        return JsonObject.insert merged field.1 value) current

def normalizeRowForUpdate (environment : Environment) (schema : TableSchema)
    (current patch : JsonObject) : Except DbStatus JsonObject := do
  if schema.rowMode = .exact then
    let merged ← mergeExactPatch schema current patch
    normalizeExactRow numbers schema merged
  else
    let row ← mergeManagedPatch numbers schema current patch
    if schema.columns.any fun column => (!JsonObject.contains row column.columnId ||
        (JsonObject.value row column.columnId).isNull) && (!column.nullable || column.required) then
      invalid "Patch would violate non-null column"
    return JsonObject.insert row (ascii "updatedAt") (.string environment.nowIso)

def isEmptyValue : Json → Bool
  | .null => true
  | .string text => (SwString.trimmed text).isEmpty
  | .object members => members.isEmpty
  | .array elements => elements.isEmpty
  | _ => false

/-- The plan of a migration: the new names of columns. -/
abbrev MigrationPlan := SortedMap Bytes Bytes

def renameColumns (plan : MigrationPlan) (row : JsonObject) : JsonObject :=
  plan.entries.foldl (fun working renamed =>
    if JsonObject.contains working renamed.1 then
      JsonObject.remove
        (JsonObject.insert working renamed.2 (JsonObject.value working renamed.1)) renamed.1
    else working) row

def dropColumns (current next : TableSchema) (plan : MigrationPlan) (row : JsonObject) :
    Except DbStatus JsonObject :=
  current.columns.foldlM (fun working column =>
    if (findColumn next column.columnId).isNone ∧ !plan.contains column.columnId then
      if JsonObject.contains working column.columnId ∧
          !isEmptyValue (JsonObject.value working column.columnId) then
        reject "Cannot drop non-empty column"
      else .ok (JsonObject.remove working column.columnId)
    else .ok working) row

def buildMigratedRow (environment : Environment) (current next : TableSchema)
    (plan : MigrationPlan) (row : JsonObject) : Except DbStatus JsonObject := do
  let working ← dropColumns current next plan (renameColumns plan row)
  let text := fun field => Json.string ((JsonObject.value row (ascii field)).toString numbers)
  let kept := JsonObject.insert [] (ascii "rowId") (text "rowId")
  let kept := JsonObject.insert kept (ascii "createdAt") (text "createdAt")
  let kept := JsonObject.insert kept (ascii "updatedAt") (.string environment.nowIso)
  fillColumns numbers working "Migration would violate non-null column" next.columns kept

end SwStack.TableDb
