import SwStack.Lib.Transition
import SwStack.TableDb.Footprint
import SwStack.Types.JsonText

/-! Tables side by side in one database. Where the row prefixes and the index names of two tables
cannot meet, the requests to one are answered as if the other did not exist. -/
namespace SwStack.TableDb

open SwStack.Lib SwStack.Types SwStack.EmbeddedDb List

variable {numbers : Numbers} {tables : List TableSchema} {chosen : Bytes → Bool}

/-- Two tables whose keys and indexes cannot meet. -/
def Apart (left right : TableSchema) : Prop :=
  ¬ rowPrefix left.tableId <+: rowPrefix right.tableId ∧
    ¬ rowPrefix right.tableId <+: rowPrefix left.tableId ∧
    ∀ name ∈ indexNames left, name ∉ indexNames right

/-- Tables with different ids that are all apart. -/
def AllApart (tables : List TableSchema) : Prop :=
  ∀ left ∈ tables, ∀ right ∈ tables, left.tableId ≠ right.tableId → Apart left right

/-- Whether a key is under the prefix of a chosen table. -/
def underChosen (tables : List TableSchema) (chosen : Bytes → Bool) (key : Bytes) : Bool :=
  tables.any fun schema => chosen schema.tableId && (rowPrefix schema.tableId).isPrefixOf key

/-- What is left when only the chosen tables are kept. -/
def restrict (tables : List TableSchema) (chosen : Bytes → Bool) (content : Content) : Content :=
  SortedMap.filter (fun key _ => underChosen tables chosen key) content

/-- Every row was written for one of the tables. -/
def Kept (tables : List TableSchema) (content : Content) : Prop :=
  ∀ row ∈ content.entries, ∃ schema ∈ tables, OfTable schema row.1 row.2.secondaryKeys

theorem underChosen_iff : underChosen tables chosen key = true ↔
    ∃ schema ∈ tables, chosen schema.tableId = true ∧ rowPrefix schema.tableId <+: key := by
  rw [underChosen, any_eq_true]
  simp only [Bool.and_eq_true, isPrefixOf_iff_prefix]

theorem tableId_unique (apart : AllApart tables)
    (leftIn : left ∈ tables) (rightIn : right ∈ tables) (underLeft : rowPrefix left.tableId <+: key)
    (underRight : rowPrefix right.tableId <+: key) : left.tableId = right.tableId := by
  by_contra different
  obtain ⟨notLeft, notRight, -⟩ := apart left leftIn right rightIn different
  rcases prefix_or_prefix_of_prefix underLeft underRight with left | right
  · exact notLeft left
  · exact notRight right

variable {schema : TableSchema}

theorem underChosen_of_under (apart : AllApart tables)
    (member : schema ∈ tables) (under : rowPrefix schema.tableId <+: key) :
    underChosen tables chosen key = chosen schema.tableId := by
  cases own : chosen schema.tableId with
  | true => exact underChosen_iff.mpr ⟨schema, member, own, under⟩
  | false =>
    rw [Bool.eq_false_iff]
    intro inside
    obtain ⟨other, otherIn, otherOwn, otherUnder⟩ := underChosen_iff.mp inside
    rw [tableId_unique apart otherIn member otherUnder under, own] at otherOwn
    exact Bool.noConfusion otherOwn

theorem agree_restrict (apart : AllApart tables) {content : Content} (kept : Kept tables content)
    {schema : TableSchema} (member : schema ∈ tables) (own : chosen schema.tableId = true) :
    Agree numbers schema content (restrict tables chosen content) where
  rows key under := by
    rw [restrict, SortedMap.find?_filter, underChosen_of_under apart member under, own]
    cases content.find? key <;> rfl
  entries name named start stop := by
    refine (Content.scanIndexJson_filter (fun row held indexed => ?_) start stop).symm
    obtain ⟨other, otherIn, under, names⟩ := kept row held
    rw [underChosen_of_under apart otherIn under]
    by_cases same : other.tableId = schema.tableId
    · rw [same]
      exact own
    · exact absurd named ((apart other otherIn schema member same).2.2 name (names name indexed))

variable {content : Content} {batch : RowBatch}

/-- A write to the chosen tables is the same write to what they keep. -/
theorem restrict_write (persistent : Bool)
    (inside : ∀ operation ∈ batch, underChosen tables chosen operation.primaryKey = true) :
    restrict tables chosen (content.write numbers persistent batch) =
      (restrict tables chosen content).write numbers persistent batch := by
  induction batch generalizing content with
  | nil => rfl
  | cons operation batch ih =>
    have here := inside operation mem_cons_self
    rw [Content.write, Content.write, foldl_cons, foldl_cons]
    have rest := @ih (Content.apply numbers persistent content operation)
      (fun other later => inside other (mem_cons_of_mem _ later))
    rw [Content.write, Content.write] at rest
    rw [rest]
    congr 1
    apply SortedMap.ext_find?
    intro key
    rw [restrict, restrict, SortedMap.find?_filter, Content.find?_apply, Content.find?_apply,
      SortedMap.find?_filter]
    by_cases same : key = operation.primaryKey
    · rw [if_pos same, if_pos same, same, here]
      cases Content.stored numbers persistent operation <;> rfl
    · rw [if_neg same, if_neg same]

theorem restrict_write_other (persistent : Bool)
    (outside : ∀ operation ∈ batch, underChosen tables chosen operation.primaryKey = false) :
    restrict tables chosen (content.write numbers persistent batch) =
      restrict tables chosen content := by
  induction batch generalizing content with
  | nil => rfl
  | cons operation batch ih =>
    have here := outside operation mem_cons_self
    rw [Content.write, foldl_cons]
    have rest := @ih (Content.apply numbers persistent content operation)
      (fun other later => outside other (mem_cons_of_mem _ later))
    rw [Content.write] at rest
    rw [rest]
    apply SortedMap.ext_find?
    intro key
    rw [restrict, restrict, SortedMap.find?_filter, SortedMap.find?_filter, Content.find?_apply]
    by_cases same : key = operation.primaryKey
    · rw [if_pos same, same, here]
      cases Content.stored numbers persistent operation <;>
        cases content.find? operation.primaryKey <;> rfl
    · rw [if_neg same]

/-- Whether a request is to chosen tables. -/
def isChosen (chosen : Bytes → Bool) (request : Environment × Request) : Bool :=
  request.2.schemas.all fun schema => chosen schema.tableId

/-- A request to chosen tables only, or to other tables only. -/
def Sided (chosen : Bytes → Bool) (request : Environment × Request) : Prop :=
  isChosen chosen request = true ∨ ∀ schema ∈ request.2.schemas, chosen schema.tableId = false

/-- The answers to the requests to chosen tables. -/
def answersTo (chosen : Bytes → Bool) (requests : List (Environment × Request))
    (answers : List (Except DbStatus Answer)) : List (Except DbStatus Answer) :=
  ((requests.zip answers).filter fun answered => isChosen chosen answered.1).map Prod.snd

/-- The tables of a list of requests. -/
def tablesOf (requests : List (Environment × Request)) : List TableSchema :=
  requests.flatMap fun request => request.2.schemas

variable {request : Environment × Request}

theorem within_tables (subset : request.2.schemas ⊆ tables)
    (ran : outcome numbers request.1 content request.2 = .ok (answer, batch)) :
    ∀ operation ∈ batch, Within tables operation := by
  intro operation member
  exact within_of_subset subset (outcome_within ran operation member)

/-- A request keeps what all rows have in common that its batch stores. -/
theorem execute_entries (good : Bytes × Row → Prop) {db : Database}
    (before : ∀ entry ∈ db.content.entries, good entry)
    (stores : ∀ answer batch, outcome numbers request.1 db.content request.2 = .ok (answer, batch) →
      ∀ operation ∈ batch, ∀ row, Content.stored numbers db.persistent operation = some row →
        good (operation.primaryKey, row)) :
    ∀ entry ∈ (execute numbers request.1 request.2 db).2.content.entries, good entry := by
  cases ran : outcome numbers request.1 db.content request.2 with
  | error status =>
    rw [execute, ran]
    exact before
  | ok result =>
    obtain ⟨answer, batch⟩ := result
    rw [execute, ran]
    cases batch with
    | nil => exact before
    | cons operation batch =>
      dsimp only
      split
      · exact before
      · exact Content.entries_write good before (stores answer _ ran)

theorem execute_kept {request : Environment × Request} {db : Database}
    (subset : request.2.schemas ⊆ tables) (kept : Kept tables db.content) :
    Kept tables (execute numbers request.1 request.2 db).2.content := by
  refine execute_entries _ kept fun answer batch ran operation member row stored => ?_
  rw [Content.stored_secondaryKeys stored]
  exact within_tables subset ran operation member

/-- The databases that allowed requests make of an empty one. -/
abbrev RequestRun (numbers : Numbers) (allowed : Database → Environment × Request → Prop)
    (persistent : Bool) : Database → Prop :=
  Reaches (fun db request => some (execute numbers request.1 request.2 db).2) allowed
    { persistent, content := ∅ }

/-- What the chosen tables keep of a database. -/
def Database.restrict (tables : List TableSchema) (chosen : Bytes → Bool) (db : Database) :
    Database :=
  { db with content := TableDb.restrict tables chosen db.content }

/-- A request to chosen tables runs alike with and without the others. -/
theorem execute_chosen (apart : AllApart tables) {request : Environment × Request} {db : Database}
    (subset : request.2.schemas ⊆ tables) (kept : Kept tables db.content)
    (own : isChosen chosen request = true) :
    execute numbers request.1 request.2 (db.restrict tables chosen) =
      ((execute numbers request.1 request.2 db).1,
        (execute numbers request.1 request.2 db).2.restrict tables chosen) := by
  rw [isChosen, all_eq_true] at own
  have same : outcome numbers request.1 (restrict tables chosen db.content) request.2 =
      outcome numbers request.1 db.content request.2 :=
    (outcome_congr fun schema member =>
      agree_restrict apart kept (subset member) (own schema member)).symm
  rw [execute, execute, Database.restrict, same]
  cases ran : outcome numbers request.1 db.content request.2 with
  | error status => rfl
  | ok result =>
    obtain ⟨answer, batch⟩ := result
    have inside : ∀ operation ∈ batch, underChosen tables chosen operation.primaryKey = true := by
      intro operation member
      obtain ⟨schema, named, under, -⟩ := outcome_within ran operation member
      exact underChosen_iff.mpr ⟨schema, subset named, own schema named, under⟩
    cases batch with
    | nil => rfl
    | cons operation batch =>
      dsimp only
      split
      · rfl
      · rw [Database.restrict, restrict_write db.persistent inside]

/-- A request to other tables leaves the chosen ones as they are. -/
theorem execute_other (apart : AllApart tables) {request : Environment × Request} {db : Database}
    (subset : request.2.schemas ⊆ tables)
    (others : ∀ schema ∈ request.2.schemas, chosen schema.tableId = false) :
    (execute numbers request.1 request.2 db).2.restrict tables chosen =
      db.restrict tables chosen := by
  rw [execute]
  cases ran : outcome numbers request.1 db.content request.2 with
  | error status => rfl
  | ok result =>
    obtain ⟨answer, batch⟩ := result
    have outside : ∀ operation ∈ batch,
        underChosen tables chosen operation.primaryKey = false := by
      intro operation member
      obtain ⟨schema, named, under, -⟩ := outcome_within ran operation member
      rw [underChosen_of_under apart (subset named) under]
      exact others schema named
    cases batch with
    | nil => rfl
    | cons operation batch =>
      dsimp only
      split
      · rfl
      · rw [Database.restrict, Database.restrict, restrict_write_other db.persistent outside]

theorem schemas_some (request : Request) : ∃ schema, schema ∈ request.schemas := by
  cases request with
  | migrateTable current next plan => exact ⟨current, mem_cons_self⟩
  | _ => exact ⟨_, mem_cons_self⟩

theorem isChosen_of_others (others : ∀ schema ∈ request.2.schemas, chosen schema.tableId = false) :
    isChosen chosen request = false := by
  obtain ⟨schema, named⟩ := schemas_some request.2
  rw [Bool.eq_false_iff]
  intro own
  have held := all_eq_true.mp own schema named
  rw [others schema named] at held
  exact Bool.noConfusion held

theorem answersTo_cons (request : Environment × Request) (answer : Except DbStatus Answer)
    (requests : List (Environment × Request)) (answers : List (Except DbStatus Answer)) :
    answersTo chosen (request :: requests) (answer :: answers) =
      if isChosen chosen request then answer :: answersTo chosen requests answers
      else answersTo chosen requests answers := by
  rw [answersTo, zip_cons_cons, filter_cons]
  split <;> rfl

theorem run_restrict (apart : AllApart tables) {requests : List (Environment × Request)}
    {db : Database} (kept : Kept tables db.content) (subset : tablesOf requests ⊆ tables)
    (sided : ∀ request ∈ requests, Sided chosen request) :
    run numbers (db.restrict tables chosen) (requests.filter (isChosen chosen)) =
      (answersTo chosen requests (run numbers db requests).1,
        (run numbers db requests).2.restrict tables chosen) := by
  induction requests generalizing db with
  | nil => rfl
  | cons request requests ih =>
    obtain ⟨environment, asked⟩ := request
    have here : asked.schemas ⊆ tables := fun schema member =>
      subset (mem_flatMap.mpr ⟨_, mem_cons_self, member⟩)
    have rest := @ih (execute numbers environment asked db).2 
      (@execute_kept numbers tables (environment, asked) db here kept)
      (fun schema member => subset (by
        obtain ⟨other, later, named⟩ := mem_flatMap.mp member
        exact mem_flatMap.mpr ⟨other, mem_cons_of_mem _ later, named⟩))
      fun other later => sided other (mem_cons_of_mem _ later)
    rcases sided (environment, asked) mem_cons_self with own | others
    · have same := @execute_chosen numbers tables chosen apart (environment, asked) db here kept own
      dsimp only at same
      rw [filter_cons_of_pos own, run, same]
      dsimp only
      rw [rest, run]
      dsimp only
      rw [answersTo_cons, if_pos own]
    · have same := @execute_other numbers tables chosen apart (environment, asked) db here others
      have notOwn := isChosen_of_others others
      dsimp only at same
      rw [filter_cons_of_neg (by simp [notOwn]), ← same, rest, run]
      dsimp only
      rw [answersTo_cons, if_neg (by simp [notOwn])]

/-- The chosen tables are as if the requests to the others had never been made: their requests get
the same answers, and the same rows and index entries are left. -/
def Isolated (numbers : Numbers) (persistent : Bool) (chosen : Bytes → Bool)
    (requests : List (Environment × Request)) : Prop :=
  let together := run numbers { persistent, content := ∅ } requests
  let alone := run numbers { persistent, content := ∅ } (requests.filter (isChosen chosen))
  answersTo chosen requests together.1 = alone.1 ∧
    ∀ schema ∈ tablesOf requests, chosen schema.tableId = true →
      (∀ key, rowPrefix schema.tableId <+: key →
        together.2.content.find? key = alone.2.content.find? key) ∧
      ∀ name ∈ indexNames schema,
        together.2.content.index name = alone.2.content.index name

theorem run_kept {requests : List (Environment × Request)} {db : Database}
    (kept : Kept tables db.content) (subset : tablesOf requests ⊆ tables) :
    Kept tables (run numbers db requests).2.content := by
  induction requests generalizing db with
  | nil => exact kept
  | cons request requests ih =>
    obtain ⟨environment, asked⟩ := request
    have here : asked.schemas ⊆ tables := fun schema member =>
      subset (mem_flatMap.mpr ⟨_, mem_cons_self, member⟩)
    refine ih (@execute_kept numbers tables (environment, asked) db here kept) ?_
    intro schema member
    obtain ⟨other, later, named⟩ := mem_flatMap.mp member
    exact subset (mem_flatMap.mpr ⟨other, mem_cons_of_mem _ later, named⟩)

/-- Tables that are apart are isolated in every run. -/
theorem isolated_of_apart (persistent : Bool) {requests : List (Environment × Request)}
    (apart : AllApart (tablesOf requests)) (sided : ∀ request ∈ requests, Sided chosen request) :
    Isolated numbers persistent chosen requests := by
  have empty : Kept (tablesOf requests) (∅ : Content) := fun row held => absurd held not_mem_nil
  have kept := @run_kept numbers (tablesOf requests) requests { persistent, content := ∅ } empty
    (List.Subset.refl _)
  have same := @run_restrict numbers (tablesOf requests) chosen apart requests
    { persistent, content := ∅ } empty (List.Subset.refl _) sided
  have start : Database.restrict (tablesOf requests) chosen { persistent, content := ∅ } =
      { persistent, content := ∅ } := rfl
  rw [start] at same
  rw [Isolated, same]
  refine ⟨rfl, fun schema member own => ⟨fun key under => ?_, fun name named => ?_⟩⟩
  · exact (@agree_restrict numbers _ _ apart _ kept _ member own).rows key under
  · refine (Content.index_filter fun row held indexed => ?_).symm
    obtain ⟨other, otherIn, under, names⟩ := kept row held
    rw [underChosen_of_under apart otherIn under]
    by_cases same : other.tableId = schema.tableId
    · rw [same]
      exact own
    · exact absurd named
        ((apart other otherIn schema member same).2.2 name (names name indexed))

/-- A managed table without columns. -/
def bareTable (tableId : Bytes) : TableSchema :=
  { tableId, columns := [], indexes := [], rowMode := .managed, primaryKey := ascii "rowId" }

/-- An exact table: rows under `id`, and an index on `price`. -/
def priceTable : TableSchema :=
  { tableId := ascii "t"
    columns := [
      { columnId := ascii "id", type := ascii "string", required := true, nullable := false
        defaultValue := .null },
      { columnId := ascii "price", type := ascii "integer", required := false, nullable := true
        defaultValue := .null }]
    indexes := [{ indexId := ascii "byPrice", columnId := ascii "price" }]
    rowMode := .exact
    primaryKey := ascii "id" }

def priceRow (key : Bytes) (price : Int64) : JsonObject :=
  [(ascii "id", .string key), (ascii "price", .integer price)]

def plainEnvironment : Environment :=
  { nowIso := ascii "2024-01-01T00:00:00Z", nextRowId := ascii "row-1", failure := none }

/-- A row of each table, and then one table is cleared. -/
def insertAndClear (left right : Bytes) : List (Environment × Request) :=
  [(plainEnvironment, .insertRow (bareTable left) []),
    (plainEnvironment, .insertRow (bareTable right) []),
    (plainEnvironment, .clearTable (bareTable left))]

variable {left right : Bytes}

theorem append_cons_unique (leftPlain : mark ∉ left) (rightPlain : mark ∉ right)
    (same : left ++ mark :: leftRest = right ++ mark :: rightRest) : left = right := by
  induction left generalizing right with
  | nil =>
    cases right with
    | nil => rfl
    | cons head tail =>
      injection same with first _
      exact absurd (first ▸ mem_cons_self) rightPlain
  | cons first rest ih =>
    cases right with
    | nil =>
      injection same with head _
      exact absurd (head ▸ mem_cons_self) leftPlain
    | cons head tail =>
      injection same with heads tails
      rw [heads, ih (fun member => leftPlain (mem_cons_of_mem _ member))
        (fun member => rightPlain (mem_cons_of_mem _ member)) tails]

/-- An id that has none of the separators. -/
def PlainId (tableId : Bytes) : Prop := 0 ∉ tableId ∧ 0x2f ∉ tableId ∧ 0x2e ∉ tableId

theorem rowPrefix_plain (plain : PlainId tableId) :
    rowPrefix tableId = ascii "table/" ++ (tableId ++ ascii "/row/") := by
  rw [rowPrefix, SwString.toUtf8_of_plain, append_assoc]
  rw [mem_append, mem_append, not_or, not_or]
  exact ⟨⟨by decide, plain.1⟩, by decide⟩

theorem tableId_of_under (leftPlain : PlainId left)
    (rightPlain : PlainId right) (under : rowPrefix left <+: rowPrefix right) : left = right := by
  rw [rowPrefix_plain leftPlain, rowPrefix_plain rightPlain,
    prefix_append_right_inj] at under
  obtain ⟨more, same⟩ := under
  rw [append_assoc] at same
  exact append_cons_unique leftPlain.2.1 rightPlain.2.1 same

theorem indexNames_shape (member : name ∈ indexNames schema) :
    ∃ rest, name = ascii "swtable." ++ (schema.tableId ++ 0x2e :: rest) := by
  obtain ⟨field, indexed, rfl⟩ := mem_map.mp member
  rw [indexNameForField]
  split
  · exact ⟨ascii "builtin." ++ field, by simp [ascii]⟩
  · rename_i notBuiltIn
    split
    · rename_i index found
      exact ⟨ascii "idx." ++ index.suffix, by simp [ascii]⟩
    · rename_i nothing
      rw [indexedFields, mem_append] at indexed
      rcases indexed with builtIn | indexed
      · split at builtIn
        · rename_i managed
          exact absurd ⟨managed, by simpa using builtIn⟩ notBuiltIn
        · exact absurd builtIn not_mem_nil
      · obtain ⟨index, held, rfl⟩ := mem_map.mp indexed
        rw [findIndexByColumn, find?_eq_none] at nothing
        exact absurd (nothing index held) (by simp)

theorem apart_of_plain {left right : TableSchema} (leftPlain : PlainId left.tableId)
    (rightPlain : PlainId right.tableId) (different : left.tableId ≠ right.tableId) :
    Apart left right := by
  refine ⟨fun under => different (tableId_of_under leftPlain rightPlain under),
    fun under => different (tableId_of_under rightPlain leftPlain under).symm,
    fun name inLeft inRight => ?_⟩
  obtain ⟨leftRest, leftSame⟩ := indexNames_shape inLeft
  obtain ⟨rightRest, rightSame⟩ := indexNames_shape inRight
  rw [leftSame, append_cancel_left_eq] at rightSame
  exact different (append_cons_unique leftPlain.2.2 rightPlain.2.2 rightSame)

theorem tablesOf_insertAndClear (member : schema ∈ tablesOf (insertAndClear left right)) :
    schema = bareTable left ∨ schema = bareTable right := by
  simp only [tablesOf, insertAndClear, Request.schemas, flatMap_cons, flatMap_nil,
    cons_append, nil_append, mem_cons, not_mem_nil, or_false] at member
  rcases member with rfl | rfl | rfl
  · exact Or.inl rfl
  · exact Or.inr rfl
  · exact Or.inl rfl

theorem sided_insertAndClear (different : left ≠ right) (member : request ∈ insertAndClear left right) :
    Sided (fun tableId => decide (tableId = right)) request := by
  have other : ∀ schema ∈ [bareTable left], decide (schema.tableId = right) = false := by
    intro schema named
    rw [mem_singleton.mp named]
    exact decide_eq_false different
  simp only [insertAndClear, mem_cons, not_mem_nil, or_false] at member
  rcases member with rfl | rfl | rfl
  · exact Or.inr other
  · exact Or.inl (by simp [isChosen, Request.schemas, bareTable])
  · exact Or.inr other

theorem isolated_of_apart_users :
    Isolated bitsNumbers false (fun tableId => decide (tableId = ascii "users"))
      (insertAndClear (ascii "orders") (ascii "users")) := by
  refine isolated_of_apart false (fun left leftIn right rightIn different => ?_)
    fun request member => sided_insertAndClear (by decide) member
  have plain : ∀ schema ∈ tablesOf (insertAndClear (ascii "orders") (ascii "users")),
      PlainId schema.tableId := by
    intro schema member
    rcases tablesOf_insertAndClear member with rfl | rfl
    · exact ⟨by decide, by decide, by decide⟩
    · exact ⟨by decide, by decide, by decide⟩
  exact apart_of_plain (plain left leftIn) (plain right rightIn) different

/-- Clearing the table `a` clears the table `a/row/b`. -/
theorem isolation_fails_of_slash :
    ¬ ∀ (numbers : Numbers) (persistent : Bool) (chosen : Bytes → Bool)
      (requests : List (Environment × Request)),
      (∀ schema ∈ tablesOf requests, validateSchema schema = .ok ()) →
      (∀ request ∈ requests, Sided chosen request) → Isolated numbers persistent chosen requests := by
  intro isolated
  have accepted : ∀ schema ∈ tablesOf (insertAndClear (ascii "a") (ascii "a/row/b")),
      validateSchema schema = .ok () := by
    intro schema member
    rcases tablesOf_insertAndClear member with rfl | rfl <;> rfl
  obtain ⟨-, rows⟩ := isolated bitsNumbers false (fun tableId => decide (tableId = ascii "a/row/b"))
    (insertAndClear (ascii "a") (ascii "a/row/b")) accepted
    fun request member => sided_insertAndClear (by decide) member
  have same := (rows (bareTable (ascii "a/row/b"))
    (mem_flatMap.mpr ⟨_, mem_cons_of_mem _ mem_cons_self, mem_cons_self⟩)
    (by decide)).1 (ascii "table/a/row/b/row/row-1") (by decide)
  have gone : (run bitsNumbers { persistent := false, content := ∅ }
      (insertAndClear (ascii "a") (ascii "a/row/b"))).2.content.contains
        (ascii "table/a/row/b/row/row-1") = false := by rfl
  have kept : (run bitsNumbers { persistent := false, content := ∅ }
      ((insertAndClear (ascii "a") (ascii "a/row/b")).filter
        (isChosen fun tableId => decide (tableId = ascii "a/row/b")))).2.content.contains
          (ascii "table/a/row/b/row/row-1") = true := by rfl
  rw [SortedMap.contains, same, ← SortedMap.contains, kept] at gone
  exact Bool.noConfusion gone

end SwStack.TableDb
