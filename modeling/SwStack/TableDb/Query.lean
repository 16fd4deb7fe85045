import SwStack.TableDb.Rows
import SwStack.Types.Base64

/-! Queries. One index, or the primary keys, is scanned; every filter is checked on the rows, and
the page is taken from the scan itself when it comes in the order of the result. -/
namespace SwStack.TableDb

open SwStack.Lib SwStack.Types SwStack.EmbeddedDb

structure QueryFilter where
  columnId : Bytes
  op : Bytes
  value : Json

structure TableQuery where
  limit : Int
  cursor : Bytes
  sortBy : Bytes
  sortDirection : Bytes
  filters : List QueryFilter

structure QueryResult where
  rows : List JsonObject
  nextCursor : Bytes
  hasMore : Bool

def filterOp (filter : QueryFilter) : Bytes :=
  if (SwString.trimmed filter.op).isEmpty then ascii "eq"
  else SwString.toLower (SwString.trimmed filter.op)

def sortDirection (query : TableQuery) : Bytes :=
  if (SwString.trimmed query.sortDirection).isEmpty then ascii "desc"
  else SwString.toLower (SwString.trimmed query.sortDirection)

def queryLimit (query : TableQuery) : Nat := if query.limit ≤ 0 then 50 else query.limit.toNat

def querySortField (schema : TableSchema) (query : TableQuery) : Bytes :=
  if !(SwString.trimmed query.sortBy).isEmpty then SwString.trimmed query.sortBy
  else if schema.rowMode = .managed then ascii "updatedAt"
  else schema.primaryKey

/-- A field that a query can filter and sort by. -/
def isQueryField (schema : TableSchema) (columnId : Bytes) : Bool :=
  columnId = schema.primaryKey || (schema.rowMode = .managed && isBuiltInField columnId) ||
    (findIndexByColumn schema columnId).isSome

def validateFilter (schema : TableSchema) (filter : QueryFilter) : Except DbStatus Unit := do
  let type := columnTypeForField schema filter.columnId
  if (SwString.trimmed type).isEmpty then invalid "Filter targets unknown column"
  if !isQueryField schema filter.columnId then invalid "Filter column is not indexed"
  if filterOp filter ≠ ascii "eq" ∧ filterOp filter ≠ ascii "prefix" then
    invalid "Unsupported filter operator"
  if filterOp filter = ascii "prefix" ∧ !requiresStringPrefixSupport type then
    invalid "Prefix filters require string-like indexed columns"

def validateQuery (schema : TableSchema) (query : TableQuery) : Except DbStatus Unit := do
  if 250 < queryLimit query then invalid "Query limit exceeds maximum"
  if sortDirection query ≠ ascii "asc" ∧ sortDirection query ≠ ascii "desc" then
    invalid "Invalid sort direction"
  if !isQueryField schema (querySortField schema query) then invalid "Sort column is not indexed"
  query.filters.forM (validateFilter schema)

variable (numbers : Numbers)

def compareFieldValues (schema : TableSchema) (columnId : Bytes) (left right : Json) : Ordering :=
  match columnType (columnTypeForField schema columnId) with
  | some .integer => compare (left.toInteger numbers).toInt (right.toInteger numbers).toInt
  | some .number =>
    if (left.toDouble numbers).less (right.toDouble numbers) then .lt
    else if (right.toDouble numbers).less (left.toDouble numbers) then .gt
    else .eq
  | some .boolean => compare left.toBool right.toBool
  | _ => compare (left.toString numbers) (right.toString numbers)

/-- Rows are compared by a field, then by their ids. -/
def compareOrderedValues (schema : TableSchema) (sortBy : Bytes) (descending : Bool)
    (left : Json × Bytes) (right : Json × Bytes) : Ordering :=
  let ascending := (compareFieldValues numbers schema sortBy left.1 right.1).then
    (compare left.2 right.2)
  if descending then ascending.swap else ascending

def sortKey (schema : TableSchema) (sortBy : Bytes) (row : JsonObject) : Json × Bytes :=
  (row.value sortBy, (row.value schema.primaryKey).toString numbers)

def matchesFilter (schema : TableSchema) (row : JsonObject) (filter : QueryFilter) : Bool :=
  match coerceValue numbers (columnTypeForField schema filter.columnId) filter.value true with
  | .error _ => false
  | .ok filterValue =>
    let rowValue := row.value filter.columnId
    if filterOp filter = ascii "eq" then
      compareFieldValues numbers schema filter.columnId rowValue filterValue = .eq
    else SwString.startsWith (rowValue.toString numbers) (filterValue.toString numbers)

def matchesAllFilters (schema : TableSchema) (query : TableQuery) (row : JsonObject) : Bool :=
  query.filters.all (matchesFilter numbers schema row)

def makeCursor (position : Json × Bytes) : Bytes :=
  base64Encode (jsonBytes numbers
    (JsonObject.insert (JsonObject.insert [] (ascii "sortValue") position.1) (ascii "rowId")
      (.string position.2)))

/-- Where a query resumes, if it has a cursor. -/
def parseCursor (cursor : Bytes) : Except DbStatus (Option (Json × Bytes)) :=
  if (SwString.trimmed cursor).isEmpty then .ok none
  else
    match parseJsonObject numbers (base64Decode cursor) with
    | some object => .ok (some (JsonObject.value object (ascii "sortValue"),
        (JsonObject.value object (ascii "rowId")).toString numbers))
    | none => reject "Invalid cursor"

inductive Scan where
  | primary (start stop : Bytes)
  | index (name start stop : Bytes)

/-- The first filter with an index decides the scan, and otherwise the sort column does. -/
def scanFilter (schema : TableSchema) (query : TableQuery) : Option QueryFilter :=
  query.filters.find? fun filter => isQueryField schema filter.columnId

def scanField (schema : TableSchema) (query : TableQuery) : Bytes :=
  match scanFilter schema query with
  | some filter => filter.columnId
  | none => querySortField schema query

def chooseScan (schema : TableSchema) (query : TableQuery) : Except DbStatus Scan :=
  let field := scanField schema query
  if field = schema.primaryKey then
    match scanFilter schema query with
    | some filter =>
      let start := rowPrimaryKey schema.tableId (filter.value.toString numbers)
      .ok (.primary start (scanEnd start))
    | none => .ok (.primary (rowPrefix schema.tableId) (scanEnd (rowPrefix schema.tableId)))
  else
    match scanFilter schema query with
    | some filter =>
      match encodeIndexValue numbers (columnTypeForField schema field) filter.value with
      | some start => .ok (.index (indexNameForField schema field) start (scanEnd start))
      | none => reject "Unable to encode indexed filter"
    | none => .ok (.index (indexNameForField schema field) [] [])

def Scan.entries (content : Content) : Scan → List DbJsonEntry
  | .primary start stop => content.scanPrimaryJson numbers start stop
  | .index name start stop => content.scanIndexJson numbers name start stop

/-- Visits the rows of a scan in order, until the visitor stops. -/
def scanRows {State : Type} (visitor : State → JsonObject → State × Bool) (state : State) :
    List DbJsonEntry → State
  | [] => state
  | entry :: rest =>
    match entry.value with
    | none => scanRows visitor state rest
    | some row =>
      let (next, more) := visitor state row
      if more then scanRows visitor next rest else next

/-- What a query is evaluated with. -/
structure QueryPlan where
  schema : TableSchema
  query : TableQuery
  sortBy : Bytes
  descending : Bool
  cursor : Option (Json × Bytes)
  limit : Nat

namespace QueryPlan

def maxRows (plan : QueryPlan) : Nat := plan.limit + 1

def compareRows (plan : QueryPlan) (left right : JsonObject) : Ordering :=
  compareOrderedValues numbers plan.schema plan.sortBy plan.descending
    (sortKey numbers plan.schema plan.sortBy left) (sortKey numbers plan.schema plan.sortBy right)

def rowAfterCursor (plan : QueryPlan) (row : JsonObject) : Bool :=
  match plan.cursor with
  | none => true
  | some cursor =>
    compareOrderedValues numbers plan.schema plan.sortBy plan.descending
      (sortKey numbers plan.schema plan.sortBy row) cursor = .gt

def admits (plan : QueryPlan) (row : JsonObject) : Bool :=
  matchesAllFilters numbers plan.schema plan.query row

/-- A scan in the order of the result: whether the cursor is passed, and the rows so far. -/
def visitAscending (plan : QueryPlan) (state : Bool × List JsonObject) (row : JsonObject) :
    (Bool × List JsonObject) × Bool :=
  if !plan.admits numbers row then (state, true)
  else if !state.1 && !plan.rowAfterCursor numbers row then (state, true)
  else
    let selected := state.2 ++ [row]
    ((true, selected), selected.length < plan.maxRows)

/-- A scan against the order of the result, of which the last rows before the cursor count. -/
def visitDescending (plan : QueryPlan) (tail : List JsonObject) (row : JsonObject) :
    List JsonObject × Bool :=
  if !plan.admits numbers row then (tail, true)
  else if !plan.rowAfterCursor numbers row then (tail, false)
  else
    let grown := tail ++ [row]
    (if plan.maxRows < grown.length then grown.tail else grown, true)

/-- The position of the row that comes last in the order of the result. -/
def worstIndex (plan : QueryPlan) (selected : List JsonObject) : Nat :=
  (List.range selected.length).foldl (fun worst other =>
    if plan.compareRows numbers (selected.getD worst []) (selected.getD other []) = .lt then other
    else worst) 0

/-- A scan in any other order, which keeps the first rows of the result. -/
def visitUnordered (plan : QueryPlan) (selected : List JsonObject) (row : JsonObject) :
    List JsonObject × Bool :=
  if !plan.admits numbers row || !plan.rowAfterCursor numbers row then (selected, true)
  else if selected.length < plan.maxRows then (selected ++ [row], true)
  else
    let worst := plan.worstIndex numbers selected
    if plan.compareRows numbers row (selected.getD worst []) = .lt then
      (selected.set worst row, true)
    else (selected, true)

def select (plan : QueryPlan) (entries : List DbJsonEntry) : List JsonObject :=
  if scanField plan.schema plan.query = plan.sortBy then
    if !plan.descending then
      (scanRows (plan.visitAscending numbers) (plan.cursor.isNone, []) entries).2
    else (scanRows (plan.visitDescending numbers) [] entries).reverse
  else
    (scanRows (plan.visitUnordered numbers) [] entries).mergeSort fun left right =>
      plan.compareRows numbers left right ≠ .gt

def page (plan : QueryPlan) (selected : List JsonObject) : QueryResult :=
  let rows := selected.take plan.limit
  let hasMore := decide (plan.limit < selected.length)
  { rows
    hasMore
    nextCursor :=
      match rows.getLast? with
      | some tail =>
        if hasMore then makeCursor numbers (sortKey numbers plan.schema plan.sortBy tail) else []
      | none => [] }

end QueryPlan

def queryRows (schema : TableSchema) (query : TableQuery) (content : Content) :
    Except DbStatus QueryResult := do
  validateSchema schema
  validateQuery schema query
  let scan ← chooseScan numbers schema query
  let cursor ← parseCursor numbers query.cursor
  let plan : QueryPlan :=
    { schema, query, cursor
      sortBy := querySortField schema query
      descending := sortDirection query = ascii "desc"
      limit := queryLimit query }
  return plan.page numbers (plan.select numbers (scan.entries numbers content))

end SwStack.TableDb
