import SwStack.TableDb.ExactRuns
import SwStack.Types.JsonText

/-! An exact table as a map from keys to rows. A write of rows that succeeds leaves the map it
specifies, read back in the order of the keys, exactly when its keys can be read back. -/
namespace SwStack.TableDb

open SwStack.Lib SwStack.Types SwStack.EmbeddedDb List

/-- A request that has no batch. -/
def NothingToWrite (numbers : Numbers) (schema : TableSchema) (rows : List Json) (mode : WriteMode)
    (content : Content) : Prop :=
  rows = [] ∧ mode.eraseKeys = [] ∧
    (mode.replaces = true → scanTable numbers schema content = [])

/-- The write is all or nothing, and exact. -/
structure WritesExactly (numbers : Numbers) (environment : Environment) (schema : TableSchema)
    (rows : List Json) (mode : WriteMode) (db : Database) : Prop where
  refused : ∀ status, (execute numbers environment (mode.request schema rows) db).1 =
    .error status → (execute numbers environment (mode.request schema rows) db).2 = db
  read : ∀ answer, (execute numbers environment (mode.request schema rows) db).1 = .ok answer →
    readRows numbers schema (execute numbers environment (mode.request schema rows) db).2.content =
      .ok (.rows
        (specified numbers schema rows mode (tableRows numbers schema db.content)).values, [])
  covered : ∀ answer, (execute numbers environment (mode.request schema rows) db).1 = .ok answer →
    ∀ key, rowPrefix schema.tableId <+: key →
      ((execute numbers environment (mode.request schema rows) db).2.content.find? key).isSome →
        key ∈ keysOf schema
          (specified numbers schema rows mode (tableRows numbers schema db.content))

/-- The keys of a write can be read back: no scan ends before them, none is cut to the key of
another row, and the text of a row on disk stands for the row. -/
structure Readable (numbers : Numbers) (schema : TableSchema) (rows : List Json) (mode : WriteMode)
    (db : Database) : Prop where
  written : ∀ value ∈ rows, Scanned (rowIdOf numbers schema (objectOf value))
  kept : ∀ rowId ∈ (tableRows numbers schema db.content).keys, rowId ∉ mode.eraseKeys →
    Scanned rowId
  apart : mode.replaces = false → ∀ rowId ∈ (tableRows numbers schema db.content).keys,
    rowId ∉ touched numbers schema rows mode.eraseKeys →
      SwString.toUtf8 rowId ∉ (touched numbers schema rows mode.eraseKeys).map SwString.toUtf8
  intact : db.persistent = true → ∀ value ∈ rows,
    parseJsonObject numbers (jsonBytes numbers (objectOf value)) = some (objectOf value)

section

variable {numbers : Numbers} {environment : Environment} {schema : TableSchema} {rows : List Json}
  {mode : WriteMode} {db : Database}

/-- The content after the batch of a write. -/
def contentAfter (numbers : Numbers) (schema : TableSchema) (rows : List Json) (mode : WriteMode)
    (db : Database) : Content :=
  db.content.write numbers db.persistent
    (writtenBatch numbers schema rows mode.replaces mode.eraseKeys db.content)

theorem writtenBatch_nil :
    writtenBatch numbers schema rows mode.replaces mode.eraseKeys db.content = [] ↔
      NothingToWrite numbers schema rows mode db.content := by
  rw [writtenBatch, append_eq_nil_iff, append_eq_nil_iff, map_eq_nil_iff,
    map_eq_nil_iff, NothingToWrite, and_assoc]
  refine and_congr_right fun noRows => and_congr_right fun noErased => ?_
  rw [noRows, noErased]
  cases mode.replaces with
  | false => simp
  | true =>
    have all : omitted numbers schema ((touched numbers schema [] []).map
        (rowPrimaryKey schema.tableId)) db.content =
          (scanTable numbers schema db.content).map fun entry => .erase entry.primaryKey := by
      rw [omitted, filter_eq_self.mpr fun entry _ => by simp [touched]]
    rw [if_pos rfl, all, map_eq_nil_iff]
    simp

theorem execute_write (numbers : Numbers) (environment : Environment) (schema : TableSchema)
    (rows : List Json) (mode : WriteMode) (db : Database) :
    (∃ status, execute numbers environment (mode.request schema rows) db = (.error status, db) ∧
      ¬ (Accepts numbers schema rows mode.eraseKeys ∧ (environment.failure = none ∨
        NothingToWrite numbers schema rows mode db.content))) ∨
    (execute numbers environment (mode.request schema rows) db =
        (.ok .done, { db with content := contentAfter numbers schema rows mode db }) ∧
      Accepts numbers schema rows mode.eraseKeys ∧ (environment.failure = none ∨
        NothingToWrite numbers schema rows mode db.content)) := by
  rw [execute, outcome_request]
  cases ran : writeRows numbers schema rows mode.replaces mode.eraseKeys db.content with
  | error status =>
    refine Or.inl ⟨status, rfl, ?_⟩
    rintro ⟨accepts, -⟩
    rw [writeRows_ok.mpr ⟨accepts, rfl⟩] at ran
    cases ran
  | ok result =>
    obtain ⟨accepts, rfl⟩ := writeRows_ok.mp ran
    cases batch : writtenBatch numbers schema rows mode.replaces mode.eraseKeys db.content with
    | nil =>
      refine Or.inr ⟨?_, accepts, Or.inr (writtenBatch_nil.mp batch)⟩
      rw [contentAfter, batch]
      rfl
    | cons first rest =>
      cases failed : environment.failure with
      | none =>
        refine Or.inr ⟨?_, accepts, Or.inl rfl⟩
        rw [contentAfter, batch]
      | some status =>
        refine Or.inl ⟨status, rfl, ?_⟩
        rintro ⟨-, absent | nothing⟩
        · cases absent
        · rw [writtenBatch_nil.mpr nothing] at batch
          cases batch

theorem specified_of_free (state : TableState numbers schema db.content)
    (under : rowPrefix schema.tableId <+: key)
    (free : key ∉ (touched numbers schema rows mode.eraseKeys).map (rowPrimaryKey schema.tableId))
    (present : (db.content.find? key).isSome) (remains : mode.replaces = false) :
    key ∈ keysOf schema
      (specified numbers schema rows mode (tableRows numbers schema db.content)) := by
  obtain ⟨kept, found⟩ := Option.isSome_iff_exists.mp present
  obtain ⟨row, stored, held⟩ := tableRows_of_stored state found under
  refine mem_keysOf.mpr ⟨rowIdOf numbers schema row, row, ?_, stored.key.symm⟩
  have other : rowIdOf numbers schema row ∉ touched numbers schema rows mode.eraseKeys :=
    fun member => free (mem_map.mpr ⟨_, member, stored.key.symm⟩)
  rw [touched, mem_append, not_or] at other
  rw [find?_specified_other fun value member same =>
    other.1 (mem_map.mpr ⟨value, member, same⟩), remains, if_neg (by simpa using other.2)]
  exact held

/-- What is left under the prefix was asked for, unless a replacement could not reach it. -/
theorem covered_unless (accepts : Accepts numbers schema rows mode.eraseKeys)
    (state : TableState numbers schema db.content)
    (under : rowPrefix schema.tableId <+: key)
    (present : ((contentAfter numbers schema rows mode db).find? key).isSome) :
    key ∈ keysOf schema (specified numbers schema rows mode
      (tableRows numbers schema db.content)) ∨
      (mode.replaces = true ∧ (db.content.find? key).isSome ∧
        ∀ rest, key = rowPrefix schema.tableId ++ rest → ¬ Scanned rest) := by
  by_cases named : key ∈ (touched numbers schema rows mode.eraseKeys).map
      (rowPrimaryKey schema.tableId)
  · rcases mem_touchedKeys.mp named with ⟨value, member, rfl⟩ | ⟨rowId, member, rfl⟩
    · exact Or.inl (mem_keysOf.mpr ⟨_, _, find?_specified_row accepts member, rfl⟩)
    · rw [contentAfter, find?_written_erased accepts member] at present
      cases present
  · cases replaces : mode.replaces with
    | false =>
      refine Or.inl (specified_of_free state under named ?_ replaces)
      rwa [contentAfter, find?_written_other named] at present
      intro yes
      rw [replaces] at yes
      cases yes
    | true =>
      have unreached : ∀ rest, key = rowPrefix schema.tableId ++ rest → ¬ Scanned rest := by
        rintro rest rfl scanned
        rw [contentAfter, find?_written_swept replaces scanned named] at present
        cases present
      refine Or.inr ⟨rfl, ?_, unreached⟩
      rwa [contentAfter, find?_written_other named fun _ => unreached] at present

theorem scanned_covered (accepts : Accepts numbers schema rows mode.eraseKeys)
    (state : TableState numbers schema db.content) :
    ∀ key ∈ scannedKeys numbers schema (contentAfter numbers schema rows mode db),
      key ∈ keysOf schema (specified numbers schema rows mode
        (tableRows numbers schema db.content)) := by
  intro key member
  obtain ⟨present, rest, scanned, rfl⟩ := mem_scannedKeys.mp member
  rcases covered_unless accepts state (prefix_append _ _) present with inside | ⟨-, -, never⟩
  · exact inside
  · exact absurd scanned (never rest rfl)

theorem mem_scannedKeys_row :
    rowPrimaryKey schema.tableId rowId ∈ scannedKeys numbers schema content ↔
      (content.find? (rowPrimaryKey schema.tableId rowId)).isSome ∧ Scanned rowId := by
  rw [mem_scannedKeys]
  refine and_congr_right fun _ => ?_
  constructor
  · rintro ⟨rest, scanned, same⟩
    rw [rowPrimaryKey, append_cancel_left_eq] at same
    exact scanned_toUtf8.mp (same ▸ scanned)
  · exact fun scanned => ⟨SwString.toUtf8 rowId, scanned_toUtf8.mpr scanned, rfl⟩

theorem jsonAt_written (accepts : Accepts numbers schema rows mode.eraseKeys)
    (member : value ∈ rows) :
    jsonAt numbers (contentAfter numbers schema rows mode db) (keyOf numbers schema value) =
      if db.persistent then parseJsonObject numbers (jsonBytes numbers (objectOf value))
      else some (objectOf value) := by
  rw [jsonAt, contentAfter, find?_written_row accepts member]
  cases db.persistent <;> rfl

theorem eraseKeys_of_replaces (replaces : mode.replaces = true) : mode.eraseKeys = [] := by
  cases mode with
  | replace => rfl
  | upsert => cases replaces
  | apply eraseKeys => cases replaces

theorem readable_of_exact (accepts : Accepts numbers schema rows mode.eraseKeys)
    (state : TableState numbers schema db.content)
    (read : readRows numbers schema (contentAfter numbers schema rows mode db) =
      .ok (.rows
        (specified numbers schema rows mode (tableRows numbers schema db.content)).values, []))
    (covered : ∀ key, rowPrefix schema.tableId <+: key →
      ((contentAfter numbers schema rows mode db).find? key).isSome →
        key ∈ keysOf schema (specified numbers schema rows mode
          (tableRows numbers schema db.content))) :
    Readable numbers schema rows mode db := by
  obtain ⟨distinct, each⟩ :=
    (readRows_table accepts.sound (scanned_covered accepts state)).mp read
  have written : ∀ value ∈ rows, Scanned (rowIdOf numbers schema (objectOf value)) :=
    fun value member =>
      (mem_scannedKeys_row.mp (each _ _ (find?_specified_row accepts member)).1).2
  have stays : ∀ rowId ∈ (tableRows numbers schema db.content).keys, mode.replaces = false →
      rowId ∉ touched numbers schema rows mode.eraseKeys → ∃ row,
        (specified numbers schema rows mode (tableRows numbers schema db.content)).find? rowId =
          some row := by
    intro rowId member remains other
    obtain ⟨row, held⟩ := Option.isSome_iff_exists.mp (SortedMap.mem_keys.mp member)
    rw [touched, mem_append, not_or] at other
    refine ⟨row, ?_⟩
    rw [find?_specified_other fun value valueIn same =>
      other.1 (mem_map.mpr ⟨value, valueIn, same⟩), remains, if_neg (by simpa using other.2)]
    exact held
  refine ⟨written, fun rowId member notErased => ?_, fun remains rowId member other => ?_,
    fun persistent value member => ?_⟩
  · by_cases named : ∃ value ∈ rows,
        SwString.toUtf8 (rowIdOf numbers schema (objectOf value)) = SwString.toUtf8 rowId
    · obtain ⟨value, valueIn, same⟩ := named
      exact scanned_toUtf8.mp (same ▸ scanned_toUtf8.mpr (written value valueIn))
    · have notWritten : rowId ∉ rows.map fun value => rowIdOf numbers schema (objectOf value) := by
        intro held
        obtain ⟨value, valueIn, same⟩ := mem_map.mp held
        exact named ⟨value, valueIn, by rw [same]⟩
      cases replaces : mode.replaces with
      | false =>
        obtain ⟨row, held⟩ := stays rowId member replaces (by
          rw [touched, mem_append, not_or]
          exact ⟨notWritten, notErased⟩)
        exact (mem_scannedKeys_row.mp (each rowId row held).1).2
      | true =>
        -- A replacement leaves what its scan does not reach, and then it is not asked for.
        by_contra unreached
        have nothing := eraseKeys_of_replaces replaces
        obtain ⟨row, held⟩ := Option.isSome_iff_exists.mp (SortedMap.mem_keys.mp member)
        obtain ⟨kept, found, -⟩ := stored_of_tableRows state held
        have free : rowPrimaryKey schema.tableId rowId ∉
            (touched numbers schema rows mode.eraseKeys).map (rowPrimaryKey schema.tableId) := by
          rw [mem_touchedKeys, not_or, nothing]
          refine ⟨?_, by simp⟩
          rintro ⟨value, valueIn, same⟩
          exact named ⟨value, valueIn, rowPrimaryKey_inj.mp same⟩
        have left : ((contentAfter numbers schema rows mode db).find?
            (rowPrimaryKey schema.tableId rowId)).isSome := by
          rw [contentAfter, find?_written_other free, found]
          · rfl
          · rintro - rest same
            rw [rowPrimaryKey, append_cancel_left_eq] at same
            rw [← same, scanned_toUtf8]
            exact unreached
        obtain ⟨other, otherRow, asked, same⟩ :=
          mem_keysOf.mp (covered _ (prefix_rowPrefix _ _) left)
        rcases specified_cases accepts asked with ⟨value, valueIn, rfl, -⟩ | ⟨remains, -, -⟩
        · exact named ⟨value, valueIn, rowPrimaryKey_inj.mp same⟩
        · rw [replaces] at remains
          cases remains
  · obtain ⟨row, asked⟩ := stays rowId member remains other
    intro shared
    obtain ⟨named, namedIn, same⟩ := mem_map.mp shared
    have keys : rowPrimaryKey schema.tableId named = rowPrimaryKey schema.tableId rowId :=
      rowPrimaryKey_inj.mpr same
    rcases mem_append.mp namedIn with inRows | erased
    · obtain ⟨value, valueIn, rfl⟩ := mem_map.mp inRows
      have unique := inj_on_of_nodup_map distinct
        (SortedMap.mem_keys.mpr (by rw [find?_specified_row accepts valueIn]; rfl))
        (SortedMap.mem_keys.mpr (by rw [asked]; rfl)) keys
      exact other (unique ▸ namedIn)
    · have present := (mem_scannedKeys_row.mp (each rowId row asked).1).1
      rw [← keys, contentAfter, find?_written_erased accepts erased] at present
      cases present
  · have back := (each _ _ (find?_specified_row accepts member)).2
    rw [← keyOf, jsonAt_written accepts member, persistent, if_pos rfl] at back
    exact back

/-- Rows that are asked for under one key are one row. -/
theorem specified_unique (accepts : Accepts numbers schema rows mode.eraseKeys)
    (state : TableState numbers schema db.content)
    (readable : Readable numbers schema rows mode db)
    (leftAsked : (specified numbers schema rows mode
      (tableRows numbers schema db.content)).find? left = some leftRow)
    (rightAsked : (specified numbers schema rows mode
      (tableRows numbers schema db.content)).find? right = some rightRow)
    (same : rowPrimaryKey schema.tableId left = rowPrimaryKey schema.tableId right) :
    left = right := by
  have shares : ∀ {rowId : Bytes} {row : JsonObject} {value : Json}, value ∈ rows →
      mode.replaces = false → rowId ∉ touched numbers schema rows mode.eraseKeys →
      (tableRows numbers schema db.content).find? rowId = some row →
        SwString.toUtf8 (rowIdOf numbers schema (objectOf value)) ≠ SwString.toUtf8 rowId := by
    intro rowId row value valueIn remains other held equal
    refine readable.apart remains rowId (SortedMap.mem_keys.mpr (by rw [held]; rfl)) other ?_
    rw [← equal]
    exact mem_map_of_mem (mem_append_left _ (mem_map_of_mem valueIn))
  rcases specified_cases accepts leftAsked with
    ⟨leftValue, leftIn, rfl, -⟩ | ⟨remains, leftOther, leftHeld⟩
  · rcases specified_cases accepts rightAsked with
      ⟨rightValue, rightIn, rfl, -⟩ | ⟨remains, rightOther, rightHeld⟩
    · rw [(touched_unique accepts).1 leftValue leftIn rightValue rightIn same]
    · exact absurd (rowPrimaryKey_inj.mp same) (shares leftIn remains rightOther rightHeld)
  · rcases specified_cases accepts rightAsked with
      ⟨rightValue, rightIn, rfl, -⟩ | ⟨-, -, rightHeld⟩
    · exact absurd (rowPrimaryKey_inj.mp same).symm (shares rightIn remains leftOther leftHeld)
    · exact tableRows_unique state leftHeld rightHeld same

theorem exact_of_readable (accepts : Accepts numbers schema rows mode.eraseKeys)
    (state : TableState numbers schema db.content)
    (readable : Readable numbers schema rows mode db) :
    readRows numbers schema (contentAfter numbers schema rows mode db) =
      .ok (.rows
        (specified numbers schema rows mode (tableRows numbers schema db.content)).values, []) ∧
    ∀ key, rowPrefix schema.tableId <+: key →
      ((contentAfter numbers schema rows mode db).find? key).isSome →
        key ∈ keysOf schema (specified numbers schema rows mode
          (tableRows numbers schema db.content)) := by
  constructor
  · refine (readRows_table accepts.sound (scanned_covered accepts state)).mpr
      ⟨List.Nodup.map_on ?_ ?_, ?_⟩
    · intro left leftIn right rightIn same
      obtain ⟨leftRow, leftAsked⟩ := Option.isSome_iff_exists.mp (SortedMap.mem_keys.mp leftIn)
      obtain ⟨rightRow, rightAsked⟩ := Option.isSome_iff_exists.mp (SortedMap.mem_keys.mp rightIn)
      exact specified_unique accepts state readable leftAsked rightAsked same
    · rw [SortedMap.keys, List.Nodup, pairwise_map]
      exact (SortedMap.ordered _).imp fun less => ne_of_lt less
    · intro rowId row asked
      rw [mem_scannedKeys_row]
      rcases specified_cases accepts asked with ⟨value, valueIn, rfl, rfl⟩ | ⟨remains, other, held⟩
      · refine ⟨⟨?_, readable.written value valueIn⟩, ?_⟩
        · rw [← keyOf, contentAfter, find?_written_row accepts valueIn]
          rfl
        · rw [← keyOf, jsonAt_written accepts valueIn]
          split
          · rename_i persistent
            exact readable.intact persistent value valueIn
          · rfl
      · have member : rowId ∈ (tableRows numbers schema db.content).keys :=
          SortedMap.mem_keys.mpr (by rw [held]; rfl)
        have apart := readable.apart remains rowId member other
        have free : rowPrimaryKey schema.tableId rowId ∉
            (touched numbers schema rows mode.eraseKeys).map (rowPrimaryKey schema.tableId) := by
          intro named
          obtain ⟨touchedId, touchedIn, same⟩ := mem_map.mp named
          exact apart (mem_map.mpr ⟨touchedId, touchedIn, rowPrimaryKey_inj.mp same⟩)
        obtain ⟨kept, found, json⟩ := stored_of_tableRows state held
        have left : (contentAfter numbers schema rows mode db).find?
            (rowPrimaryKey schema.tableId rowId) = some kept := by
          rw [contentAfter, find?_written_other free, found]
          intro yes
          rw [remains] at yes
          cases yes
        rw [jsonAt, left]
        refine ⟨⟨rfl, readable.kept rowId member fun erased => ?_⟩, json⟩
        exact other (mem_append_right _ erased)
  · intro key under present
    rcases covered_unless accepts state under present with inside | ⟨replaces, held, never⟩
    · exact inside
    · obtain ⟨kept, found⟩ := Option.isSome_iff_exists.mp held
      obtain ⟨row, stored, asked⟩ := tableRows_of_stored state found under
      have scanned := readable.kept (rowIdOf numbers schema row)
        (SortedMap.mem_keys.mpr (by rw [asked]; rfl))
        (by rw [eraseKeys_of_replaces replaces]; exact not_mem_nil)
      exact absurd (scanned_toUtf8.mpr scanned) (never _ stored.key)

end

/-- After every run of requests a write of exact rows is all or nothing and exact, exactly when the
keys of a write that is accepted can be read back. -/
theorem writesExactly_iff {numbers : Numbers} {schema : TableSchema} {persistent : Bool}
    {db : Database} (reached : ExactRun numbers schema persistent db) (environment : Environment)
    (rows : List Json) (mode : WriteMode) :
    WritesExactly numbers environment schema rows mode db ↔
      (Accepts numbers schema rows mode.eraseKeys →
        (environment.failure = none ∨ NothingToWrite numbers schema rows mode db.content) →
          Readable numbers schema rows mode db) := by
  rcases execute_write numbers environment schema rows mode db with
    ⟨status, ran, refused⟩ | ⟨ran, accepts, written⟩
  · constructor
    · exact fun _ accepts written => absurd ⟨accepts, written⟩ refused
    · intro _
      refine ⟨fun _ _ => by rw [ran], fun answer same => ?_, fun answer same => ?_⟩
      · rw [ran] at same
        cases same
      · rw [ran] at same
        cases same
  · have state := tableState_of_run accepts.exactMode reached
    constructor
    · intro exactly _ _
      have read := exactly.read .done
      have covered := exactly.covered .done
      rw [ran] at read covered
      exact readable_of_exact accepts state (read rfl) (covered rfl)
    · intro readable
      obtain ⟨read, covered⟩ := exact_of_readable accepts state (readable accepts written)
      refine ⟨fun status same => ?_, fun answer _ => ?_, fun answer _ => ?_⟩
      · rw [ran] at same
        cases same
      · rw [ran]
        exact read
      · rw [ran]
        exact covered

/-- The database after rows are put into the empty price table. -/
def pricesKept (persistent : Bool) (rows : List JsonObject) : Database :=
  (execute bitsNumbers plainEnvironment (.upsertRows priceTable (rows.map .object))
    { persistent, content := ∅ }).2

theorem pricesKept_reached (readsBack : persistent = true → ∀ row ∈ rows,
    parseJsonObject bitsNumbers (jsonBytes bitsNumbers row) = some row) :
    ExactRun bitsNumbers priceTable persistent (pricesKept persistent rows) := by
  have tends : Tends bitsNumbers priceTable { persistent, content := ∅ }
      (plainEnvironment, .upsertRows priceTable (rows.map .object)) := by
    refine ⟨fun other named => ?_, fun other _ _ row given kept => ?_⟩
    · rw [mem_singleton.mp named]
      exact Or.inl ⟨rfl, rfl, rfl⟩
    · rw [givenRows, map_map] at given
      obtain ⟨same, member, rfl⟩ := mem_map.mp given
      exact readsBack kept same member
  exact .next .refl tends rfl

theorem priceRow_readsBack (short : (jsonBytes bitsNumbers (priceRow key price)).length ≤ maxInt) :
    parseJsonObject bitsNumbers (jsonBytes bitsNumbers (priceRow key price)) =
      some (priceRow key price) :=
  parseJsonObject_jsonBytes bitsText_faithful rfl
    (by simp [Json.isOrdered, Json.membersOrdered, priceRow]; decide) short

/-- The rows of three keys on disk. -/
def threePrices : Database :=
  pricesKept true [priceRow (ascii "a") 5, priceRow (ascii "b") 6, priceRow (ascii "d") 7]

/-- Of three stored rows one is erased, one replaced and one left alone, and a row is added. -/
theorem writesExactly_of_prices :
    let rows := [Json.object (priceRow (ascii "b") 8), .object (priceRow (ascii "c") 9)]
    WritesExactly bitsNumbers plainEnvironment priceTable rows (.apply [ascii "a"]) threePrices ∧
      (specified bitsNumbers priceTable rows (.apply [ascii "a"])
        (tableRows bitsNumbers priceTable threePrices.content)).values.map (jsonBytes bitsNumbers) =
          [priceRow (ascii "b") 8, priceRow (ascii "c") 9, priceRow (ascii "d") 7].map
            (jsonBytes bitsNumbers) := by
  refine ⟨(writesExactly_iff (pricesKept_reached fun _ row member => ?_) plainEnvironment _
    _).mpr fun _ _ => ⟨?_, ?_, ?_, ?_⟩, by decide +kernel⟩
  · simp only [mem_cons, not_mem_nil, or_false] at member
    rcases member with rfl | rfl | rfl
    · exact priceRow_readsBack (by decide +kernel)
    · exact priceRow_readsBack (by decide +kernel)
    · exact priceRow_readsBack (by decide +kernel)
  · decide +kernel
  · decide +kernel
  · decide +kernel
  · intro _ value member
    simp only [mem_cons, not_mem_nil, or_false] at member
    rcases member with rfl | rfl
    · exact priceRow_readsBack (by decide +kernel)
    · exact priceRow_readsBack (by decide +kernel)

/-- A row whose key begins with 0xff is stored and never read, before and after another write. -/
theorem writesExactly_fails_of_top_byte :
    ¬ ∀ (numbers : Numbers) (environment : Environment) (schema : TableSchema) (rows : List Json)
      (mode : WriteMode) (persistent : Bool) (db : Database),
        ExactRun numbers schema persistent db →
          WritesExactly numbers environment schema rows mode db := by
  intro exactly
  have reached := @pricesKept_reached false [priceRow (ascii "a") 5, priceRow [0xff] 6]
    fun kept => Bool.noConfusion kept
  have read := (exactly bitsNumbers plainEnvironment priceTable [.object (priceRow (ascii "k") 7)]
    .upsert false _ reached).read .done rfl
  have missed : readRows bitsNumbers priceTable (execute bitsNumbers plainEnvironment
      (WriteMode.upsert.request priceTable [.object (priceRow (ascii "k") 7)])
        (pricesKept false [priceRow (ascii "a") 5, priceRow [0xff] 6])).2.content =
          .ok (.rows [priceRow (ascii "a") 5, priceRow (ascii "k") 7], []) := rfl
  rw [missed] at read
  have lengths := congrArg List.length (Answer.rows.inj (Prod.mk.inj (Except.ok.inj read)).1)
  exact absurd lengths (by decide +kernel)

end SwStack.TableDb
