import SwStack.TableDb.Footprint

/-! The rows of an exact table by their keys: what a write of rows asks the table to hold, and
what the batch it writes leaves in the database. -/
namespace SwStack.TableDb

open SwStack.Lib SwStack.Types SwStack.EmbeddedDb List

theorem nil_le_bytes (bytes : Bytes) : [] ≤ bytes := not_lt.mp (not_lt_nil bytes)

theorem cons_le_cons {first head : UInt8} {rest tail : Bytes} :
    (first :: rest : Bytes) ≤ head :: tail ↔ first < head ∨ first = head ∧ rest ≤ tail := by
  rw [← not_lt, cons_lt_cons_iff, not_or, not_and]
  constructor
  · rintro ⟨notAbove, below⟩
    rcases lt_or_eq_of_le (not_lt.mp notAbove) with less | same
    · exact Or.inl less
    · exact Or.inr ⟨same, not_lt.mp (below same.symm)⟩
  · rintro (less | ⟨rfl, below⟩)
    · exact ⟨not_lt.mpr less.le, fun same => absurd less (by rw [same]; exact lt_irrefl _)⟩
    · exact ⟨lt_irrefl _, fun _ => not_lt.mpr below⟩

variable {left right : Bytes}

theorem toUtf8_mono (below : left ≤ right) : SwString.toUtf8 left ≤ SwString.toUtf8 right := by
  induction left generalizing right with
  | nil => exact nil_le_bytes _
  | cons first rest ih =>
    cases right with
    | nil => exact absurd below (not_le.mpr (nil_lt_cons first rest))
    | cons head tail =>
      unfold SwString.toUtf8
      by_cases ended : first = 0
      · rw [takeWhile_cons_of_neg (by simpa using ended)]
        exact nil_le_bytes _
      · rw [takeWhile_cons_of_pos (by simpa using ended)]
        rw [cons_le_cons] at below
        rcases below with less | ⟨rfl, below⟩
        · have above : head ≠ 0 := by
            rintro rfl
            exact absurd less (by simp)
          rw [takeWhile_cons_of_pos (by simpa using above), cons_le_cons]
          exact Or.inl less
        · rw [takeWhile_cons_of_pos (by simpa using ended), cons_le_cons]
          exact Or.inr ⟨rfl, ih below⟩

theorem append_le_append (front : Bytes) (below : left ≤ right) :
    front ++ left ≤ front ++ right := by
  induction front with
  | nil => exact below
  | cons first rest ih =>
    rw [cons_append, cons_append, cons_le_cons]
    exact Or.inr ⟨rfl, ih⟩

theorem rowPrimaryKey_mono (below : left ≤ right) :
    rowPrimaryKey tableId left ≤ rowPrimaryKey tableId right :=
  append_le_append _ (toUtf8_mono below)

theorem rowPrimaryKey_inj : rowPrimaryKey tableId left = rowPrimaryKey tableId right ↔
      SwString.toUtf8 left = SwString.toUtf8 right := by
  rw [rowPrimaryKey, rowPrimaryKey, append_cancel_left_eq]

/-- A key that the scan of its table reaches: the scan ends where a byte 0xff follows the
prefix. -/
def Scanned (rowId : Bytes) : Prop := rowId.head? ≠ some 0xff

instance (rowId : Bytes) : Decidable (Scanned rowId) := inferInstanceAs (Decidable (_ ≠ _))

/-- The scan of a prefix sees the keys that do not go on with 0xff. -/
theorem inside_iff :
    (decide (start ≤ start ++ rest) && Content.before (scanEnd start) (start ++ rest)) = true ↔
      Scanned rest := by
  have above : start ≤ start ++ rest := by
    have longer := append_le_append start (nil_le_bytes rest)
    rwa [append_nil] at longer
  have less : start ++ rest < start ++ [0xff] ↔ rest < [0xff] := by
    constructor
    · intro below
      by_contra notBelow
      exact absurd below (not_lt.mpr (append_le_append start (not_lt.mp notBelow)))
    · intro below
      refine lt_of_le_of_ne (append_le_append start below.le) fun same => ?_
      rw [append_cancel_left_eq] at same
      exact absurd same (ne_of_lt below)
  rw [Bool.and_eq_true, Content.before, scanEnd, Bool.or_eq_true, decide_eq_true_iff,
    decide_eq_true_iff, less, Scanned]
  have open_ : ¬ (start ++ [0xff]).isEmpty = true := by simp
  cases rest with
  | nil => simp
  | cons first rest =>
    have top : first < 0xff ↔ first ≠ 0xff := by
      constructor
      · exact ne_of_lt
      · exact fun other => lt_of_le_of_ne (UInt8.le_iff_toNat_le.mpr (by
          have := first.toNat_lt
          have : (0xff : UInt8).toNat = 255 := rfl
          omega)) other
    rw [cons_lt_cons_iff]
    simp [above, top]

theorem scanned_toUtf8 : Scanned (SwString.toUtf8 rowId) ↔ Scanned rowId := by
  unfold Scanned SwString.toUtf8
  cases rowId with
  | nil => rfl
  | cons first rest =>
    by_cases ended : first = 0
    · subst ended
      rw [takeWhile_cons_of_neg (by simp)]
      simp
    · rw [takeWhile_cons_of_pos (by simpa using ended)]
      rfl

variable (numbers : Numbers)

/-- The id of a row. -/
def rowIdOf (schema : TableSchema) (row : JsonObject) : Bytes :=
  (JsonObject.value row schema.primaryKey).toString numbers

/-- A row that is kept under its own key. -/
structure StoredRow (schema : TableSchema) (entry : Bytes × Row) (row : JsonObject) : Prop where
  json : recordJson numbers entry.2.value = some row
  key : entry.1 = rowPrimaryKey schema.tableId (rowIdOf numbers schema row)

/-- What the writers of an exact table keep: under its prefix there are rows, under their keys. -/
def TableState (schema : TableSchema) (content : Content) : Prop :=
  ∀ entry ∈ content.entries, rowPrefix schema.tableId <+: entry.1 →
    ∃ row, StoredRow numbers schema entry row

/-- The rows of a table by their ids, whether or not a scan reaches them. -/
def tableRows (schema : TableSchema) (content : Content) : SortedMap Bytes JsonObject :=
  SortedMap.ofList ((content.entries.filter fun entry =>
    (rowPrefix schema.tableId).isPrefixOf entry.1).filterMap fun entry =>
      (recordJson numbers entry.2.value).map fun row => (rowIdOf numbers schema row, row))

inductive WriteMode where
  | replace
  | upsert
  | apply (eraseKeys : List Bytes)

def WriteMode.replaces : WriteMode → Bool
  | replace => true
  | upsert | apply _ => false

def WriteMode.eraseKeys : WriteMode → List Bytes
  | replace | upsert => []
  | apply eraseKeys => eraseKeys

def WriteMode.request (schema : TableSchema) (rows : List Json) : WriteMode → Request
  | replace => .replaceRows schema rows
  | upsert => .upsertRows schema rows
  | apply eraseKeys => .applyRows schema rows eraseKeys

/-- The members of an object, none for any other value. -/
def objectOf : Json → JsonObject
  | .object members => members
  | _ => []

/-- The rows that a table is to hold after a write, by their ids. -/
def specified (schema : TableSchema) (rows : List Json) (mode : WriteMode)
    (old : SortedMap Bytes JsonObject) : SortedMap Bytes JsonObject :=
  (rows.map objectOf).foldl (fun table row => table.insert (rowIdOf numbers schema row) row)
    (if mode.replaces then ∅
    else SortedMap.filter (fun rowId _ => decide (rowId ∉ mode.eraseKeys)) old)

/-- The ids that a request names. -/
def touched (schema : TableSchema) (rows : List Json) (eraseKeys : List Bytes) : List Bytes :=
  rows.map (fun value => rowIdOf numbers schema (objectOf value)) ++ eraseKeys

/-- What a write of rows checks. -/
structure Accepts (schema : TableSchema) (rows : List Json) (eraseKeys : List Bytes) : Prop where
  sound : validateSchema schema = .ok ()
  exactMode : schema.rowMode = .exact
  valid : ∀ value ∈ rows, ∃ row, value = .object row ∧ validateExactRow numbers schema row = .ok ()
  erased : ∀ rowId ∈ eraseKeys, rowId ≠ [] ∧ rowId.length ≤ 128
  distinct : ((touched numbers schema rows eraseKeys).map SwString.toUtf8).Nodup

def putExact (schema : TableSchema) (value : Json) : RowOperation :=
  .putJson (rowPrimaryKey schema.tableId (rowIdOf numbers schema (objectOf value))) (objectOf value)
    (secondaryKeysForRow numbers schema (objectOf value))

def eraseExact (schema : TableSchema) (rowId : Bytes) : RowOperation :=
  .erase (rowPrimaryKey schema.tableId rowId)

/-- The rows that a replacement takes out because it does not name them. -/
def omitted (schema : TableSchema) (keys : List Bytes) (content : Content) : RowBatch :=
  ((scanTable numbers schema content).filter fun entry => entry.primaryKey ∉ keys).map
    fun entry => .erase entry.primaryKey

def writtenBatch (schema : TableSchema) (rows : List Json) (replace : Bool)
    (eraseKeys : List Bytes) (content : Content) : RowBatch :=
  rows.map (putExact numbers schema) ++ eraseKeys.map (eraseExact schema) ++
    if replace then omitted numbers schema
      ((touched numbers schema rows eraseKeys).map (rowPrimaryKey schema.tableId)) content else []

variable {numbers}

variable {schema : TableSchema} {rows : List Json}

theorem outcome_request {environment : Environment} {mode : WriteMode} {content : Content} :
    outcome numbers environment content (mode.request schema rows) =
      writeRows numbers schema rows mode.replaces mode.eraseKeys content := by
  cases mode <;> rfl

/-- A fold that collects operations under different keys. -/
theorem collect_ok {α : Type} {valid : α → Prop} {key : α → Bytes} {operation : α → RowOperation}
    {step : List Bytes × RowBatch → α → Except DbStatus (List Bytes × RowBatch)}
    (steps : ∀ state item next, step state item = .ok next ↔ valid item ∧ key item ∉ state.1 ∧
      next = (state.1 ++ [key item], state.2 ++ [operation item])) (items : List α)
    {start last : List Bytes × RowBatch} (distinct : start.1.Nodup) :
    items.foldlM step start = .ok last ↔ (∀ item ∈ items, valid item) ∧
      (start.1 ++ items.map key).Nodup ∧
        last = (start.1 ++ items.map key, start.2 ++ items.map operation) := by
  induction items generalizing start with
  | nil =>
    rw [foldlM_nil, map_nil, map_nil, append_nil, append_nil]
    constructor
    · intro same
      cases same
      exact ⟨fun item member => absurd member not_mem_nil, distinct, rfl⟩
    · rintro ⟨-, -, rfl⟩
      rfl
  | cons item items ih =>
    rw [foldlM_cons, bind_ok]
    constructor
    · rintro ⟨next, stepped, ran⟩
      obtain ⟨here, fresh, rfl⟩ := (steps _ _ _).mp stepped
      have grown : (start.1 ++ [key item]).Nodup := by
        rw [nodup_append]
        refine ⟨distinct, nodup_singleton _, fun other member same otherSame equal => ?_⟩
        rw [mem_singleton.mp otherSame] at equal
        exact fresh (equal ▸ member)
      obtain ⟨later, apart, rfl⟩ := (ih grown).mp ran
      refine ⟨?_, ?_, ?_⟩
      · intro other member
        rcases mem_cons.mp member with rfl | member
        · exact here
        · exact later other member
      · rwa [append_assoc] at apart
      · simp
    · rintro ⟨valid, apart, rfl⟩
      rw [map_cons, append_cons] at apart
      have grown : (start.1 ++ [key item]).Nodup := (nodup_append.mp apart).1
      have fresh : key item ∉ start.1 := fun member =>
        (nodup_append.mp grown).2.2 _ member _ (mem_singleton.mpr rfl) rfl
      refine ⟨_, (steps _ _ _).mpr ⟨valid item mem_cons_self, fresh, rfl⟩, ?_⟩
      refine (ih grown).mpr
        ⟨fun other later => valid other (mem_cons_of_mem _ later), apart, ?_⟩
      simp

theorem putRows_ok {written : List Bytes × RowBatch} : putRows numbers schema rows = .ok written ↔
      (∀ value ∈ rows, ∃ row, value = .object row ∧ validateExactRow numbers schema row = .ok ()) ∧
        (rows.map fun value => rowPrimaryKey schema.tableId
          (rowIdOf numbers schema (objectOf value))).Nodup ∧
        written = (rows.map fun value => rowPrimaryKey schema.tableId
          (rowIdOf numbers schema (objectOf value)), rows.map (putExact numbers schema)) := by
  have base : (([], []) : List Bytes × RowBatch).1.Nodup := nodup_nil
  refine collect_ok (fun state value next => ?_) rows base
  cases value with
  | object row =>
    dsimp only
    rw [bind_ok]
    unfold reject
    constructor
    · rintro ⟨⟨⟩, passed, rest⟩
      rw [check_ok] at rest
      exact ⟨⟨row, rfl, passed⟩, rest.1, (Except.ok.inj rest.2).symm⟩
    · rintro ⟨⟨other, same, passed⟩, fresh, rfl⟩
      cases same
      refine ⟨⟨⟩, passed, ?_⟩
      rw [check_ok]
      exact ⟨fresh, rfl⟩
  | _ =>
    constructor
    · intro stepped
      cases stepped
    · rintro ⟨⟨row, same, -⟩, -⟩
      cases same

theorem eraseRows_ok {written last : List Bytes × RowBatch} (distinct : written.1.Nodup) :
    eraseRows schema eraseKeys written = .ok last ↔
      (∀ rowId ∈ eraseKeys, rowId ≠ [] ∧ rowId.length ≤ 128) ∧
        (written.1 ++ eraseKeys.map (rowPrimaryKey schema.tableId)).Nodup ∧
        last = (written.1 ++ eraseKeys.map (rowPrimaryKey schema.tableId),
          written.2 ++ eraseKeys.map (eraseExact schema)) := by
  refine collect_ok (fun state rowId next => ?_) eraseKeys distinct
  dsimp only
  unfold reject
  rw [check_ok, check_ok, not_or, not_lt, List.isEmpty_iff]
  constructor
  · rintro ⟨sized, fresh, same⟩
    exact ⟨sized, fresh, (Except.ok.inj same).symm⟩
  · rintro ⟨sized, fresh, rfl⟩
    exact ⟨sized, fresh, rfl⟩

theorem nodup_keys (tableId : Bytes) {ids : List Bytes} :
    (ids.map (rowPrimaryKey tableId)).Nodup ↔ (ids.map SwString.toUtf8).Nodup := by
  simp only [List.Nodup, pairwise_map, ne_eq, rowPrimaryKey_inj]

/-- A write of rows succeeds when its checks pass, with the batch that the rows ask for. -/
theorem writeRows_ok {replace : Bool} :
    writeRows numbers schema rows replace eraseKeys content = .ok result ↔
      Accepts numbers schema rows eraseKeys ∧
        result = (.done, writtenBatch numbers schema rows replace eraseKeys content) := by
  have keys : (touched numbers schema rows eraseKeys).map (rowPrimaryKey schema.tableId) =
      (rows.map fun value => rowPrimaryKey schema.tableId
        (rowIdOf numbers schema (objectOf value))) ++
        eraseKeys.map (rowPrimaryKey schema.tableId) := by
    rw [touched, map_append, map_map]
    rfl
  rw [writeRows, bind_ok]
  dsimp only
  simp only [guard_ok, bind_ok, not_not]
  constructor
  · rintro ⟨⟨⟩, sound, exactMode, written, puts, last, erases, same⟩
    obtain ⟨valid, distinct, rfl⟩ := putRows_ok.mp puts
    obtain ⟨sized, apart, rfl⟩ := (eraseRows_ok distinct).mp erases
    refine ⟨⟨sound, exactMode, valid, sized, ?_⟩, ?_⟩
    · rwa [← nodup_keys schema.tableId, keys]
    · rw [writtenBatch, keys]
      exact (Except.ok.inj same).symm
  · rintro ⟨accepts, rfl⟩
    have apart := (nodup_keys schema.tableId).mpr accepts.distinct
    rw [keys] at apart
    have distinct := (nodup_append.mp apart).1
    refine ⟨⟨⟩, accepts.sound, accepts.exactMode, _,
      putRows_ok.mpr ⟨accepts.valid, distinct, rfl⟩, _,
      (eraseRows_ok distinct).mpr ⟨accepts.erased, apart, rfl⟩, ?_⟩
    rw [writtenBatch, keys]
    rfl

end SwStack.TableDb
