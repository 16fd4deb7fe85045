import SwStack.EmbeddedDb.Types
import SwStack.Types.JsonValue

/-! What a database holds once its batches are committed, whatever keeps it: under every primary
key a value with its secondary keys, and in every index the entries these ask for, in the order of
their composite keys. A JSON payload stays an object in memory and becomes bytes on disk. -/
open List

namespace SwStack.EmbeddedDb

open SwStack.Lib SwStack.Types

inductive DbCode where
  | notFound
  | busy
  | readOnly
  | invalidArgument
  | notOpen
  | ioError
  | corruption
  deriving DecidableEq

/-- A status that is not ok. -/
structure DbStatus where
  code : DbCode
  message : String
  deriving DecidableEq

inductive RowValue where
  | bytes (value : Bytes)
  | json (object : JsonObject)

structure Row where
  value : RowValue
  secondaryKeys : SecondaryKeys

inductive RowOperation where
  | put (primaryKey value : Bytes) (secondaryKeys : SecondaryKeys)
  | putJson (primaryKey : Bytes) (object : JsonObject) (secondaryKeys : SecondaryKeys)
  | erase (primaryKey : Bytes)

abbrev RowBatch := List RowOperation

def RowOperation.primaryKey : RowOperation → Bytes
  | put key _ _ | putJson key _ _ | erase key => key

def RowOperation.secondaryKeys : RowOperation → SecondaryKeys
  | put _ _ keys | putJson _ _ keys => keys
  | erase _ => ∅

/-- An entry of a scan. Bytes that are no JSON object stay in the scan, without a value. -/
structure DbJsonEntry where
  primaryKey : Bytes
  secondaryKey : Bytes
  value : Option JsonObject

structure IndexEntry where
  secondaryKey : Bytes
  primaryKey : Bytes

abbrev Content := SortedMap Bytes Row

variable (numbers : Numbers)

def recordJson : RowValue → Option JsonObject
  | .json object => some object
  | .bytes value => parseJsonObject numbers value

namespace Content

def apply (persistent : Bool) (content : Content) : RowOperation → Content
  | .put key value secondaryKeys => content.insert key { value := .bytes value, secondaryKeys }
  | .putJson key object secondaryKeys =>
    content.insert key
      { value := if persistent then .bytes (jsonBytes numbers object) else .json object
        secondaryKeys }
  | .erase key => SortedMap.erase content key

def write (persistent : Bool) (batch : RowBatch) (content : Content) : Content :=
  batch.foldl (apply numbers persistent) content

def getJson (content : Content) (key : Bytes) : Except DbStatus JsonObject :=
  match content.find? key with
  | none => .error ⟨.notFound, "primary key not found"⟩
  | some row =>
    match recordJson numbers row.value with
    | none => .error ⟨.corruption, "value is not a JSON object"⟩
    | some object => .ok object

/-- Where a scan ends: an empty key leaves it open. -/
def before (stop key : Bytes) : Bool := stop.isEmpty || key < stop

def scanPrimaryJson (content : Content) (start stop : Bytes) : List DbJsonEntry :=
  ((content.fromKey start).takeWhile fun row => before stop row.1).map fun row =>
    { primaryKey := row.1, secondaryKey := [], value := recordJson numbers row.2.value }

/-- The entries that a row has in an index. -/
def entriesOf (indexName : IndexName) (row : Bytes × Row) : List (Bytes × IndexEntry) :=
  ((row.2.secondaryKeys.find? indexName).getD []).map fun secondaryKey =>
    (encodeIndexCompositeKey secondaryKey row.1, { secondaryKey, primaryKey := row.1 })

def index (content : Content) (indexName : IndexName) : SortedMap Bytes IndexEntry :=
  SortedMap.ofList (content.entries.flatMap (entriesOf indexName))

def scanIndexJson (content : Content) (indexName : IndexName) (start stop : Bytes) :
    List DbJsonEntry :=
  let entries := (content.index indexName).fromKey
    (if start.isEmpty then [] else encodeIndexCompositeKey start [])
  (entries.takeWhile fun entry => before stop entry.2.secondaryKey).filterMap fun entry =>
    (content.find? entry.2.primaryKey).map fun row =>
      { primaryKey := entry.2.primaryKey
        secondaryKey := entry.2.secondaryKey
        value := recordJson numbers row.value }

end Content

end SwStack.EmbeddedDb

/-! What a scan sees. A scan of the keys under a prefix sees the rows with that prefix and no
others, and rows without an entry in an index do not matter to it. -/
namespace SwStack.EmbeddedDb

open SwStack.Lib SwStack.Types

variable {numbers : Numbers}

variable {start : Bytes}

theorem prefix_of_between (above : start ≤ key) (below : key < start ++ [top]) : start <+: key := by
  induction start generalizing key with
  | nil => exact nil_prefix
  | cons first rest ih =>
    cases key with
    | nil => exact absurd above (by simp)
    | cons head tail =>
      have larger := not_lt.mpr above
      rw [cons_append, cons_lt_cons_iff] at below
      rw [cons_lt_cons_iff, not_or, not_and] at larger
      obtain ⟨notLess, rest_larger⟩ := larger
      rcases below with less | ⟨rfl, below⟩
      · exact absurd less notLess
      · obtain ⟨more, rfl⟩ := ih (not_lt.mp (rest_larger rfl)) below
        exact ⟨more, rfl⟩

namespace Content

theorem scanPrimaryJson_eq (content : Content) (start stop : Bytes) :
    content.scanPrimaryJson numbers start stop =
      (content.entries.filter fun row => start ≤ row.1 && before stop row.1).map fun row =>
        { primaryKey := row.1, secondaryKey := [], value := recordJson numbers row.2.value } := by
  have closed : ∀ {low high : Bytes}, low < high → before stop high = true →
      before stop low = true := by
    intro low high less inside
    rw [before, Bool.or_eq_true, decide_eq_true_iff] at inside ⊢
    exact inside.imp_right less.trans
  rw [scanPrimaryJson, SortedMap.fromKey_eq_filter,
    SortedMap.takeWhile_eq_filter (before stop) (content.ordered.filter _) closed,
    filter_filter]
  congr 1
  refine filter_congr fun row _ => ?_
  rw [Bool.and_comm]

theorem prefix_of_inside (above : start ≤ key)
    (below : before (start ++ [0xff]) key = true) : start <+: key := by
  rw [before, Bool.or_eq_true, decide_eq_true_iff] at below
  rcases below with empty | below
  · simp at empty
  · exact prefix_of_between above below

variable {content : Content}

theorem scanPrimaryJson_prefix
    (member : entry ∈ content.scanPrimaryJson numbers start (start ++ [0xff])) :
    start <+: entry.primaryKey := by
  rw [scanPrimaryJson_eq] at member
  obtain ⟨row, held, rfl⟩ := mem_map.mp member
  have inside := (mem_filter.mp held).2
  rw [Bool.and_eq_true, decide_eq_true_iff] at inside
  exact prefix_of_inside inside.1 inside.2

/-- The scan of a prefix depends on the rows under the prefix only. -/
theorem scanPrimaryJson_congr {other : Content}
    (same : ∀ key, start <+: key → content.find? key = other.find? key) :
    content.scanPrimaryJson numbers start (start ++ [0xff]) =
      other.scanPrimaryJson numbers start (start ++ [0xff]) := by
  have kept : ∀ content : Content,
      (content.entries.filter fun row => start ≤ row.1 && before (start ++ [0xff]) row.1) =
        (SortedMap.filter (fun key _ => decide (start <+: key)) content).entries.filter
          fun row => start ≤ row.1 && before (start ++ [0xff]) row.1 := by
    intro content
    rw [SortedMap.filter, filter_filter]
    refine filter_congr fun row _ => ?_
    cases inside : (start ≤ row.1 && before (start ++ [0xff]) row.1) with
    | false => rfl
    | true =>
      rw [Bool.and_eq_true, decide_eq_true_iff] at inside
      rw [decide_eq_true (prefix_of_inside inside.1 inside.2)]
      rfl
  have under : SortedMap.filter (fun key _ => decide (start <+: key)) content =
      SortedMap.filter (fun key _ => decide (start <+: key)) other := by
    apply SortedMap.ext_find?
    intro key
    rw [SortedMap.find?_filter, SortedMap.find?_filter]
    by_cases extends' : start <+: key
    · rw [same key extends']
    · have nothing : ∀ row : Option Row, row.filter (fun _ => decide (start <+: key)) = none := by
        intro row
        cases row <;> simp [Option.filter, extends']
      rw [nothing, nothing]
  rw [scanPrimaryJson_eq, scanPrimaryJson_eq, kept content, kept other, under]

/-- Whether a row has an entry in an index. -/
def Indexed (indexName : IndexName) (row : Row) : Prop :=
  (row.secondaryKeys.find? indexName).isSome

variable {indexName : IndexName}

theorem entriesOf_not_indexed {row : Bytes × Row}
    (absent : ¬ Indexed indexName row.2) : entriesOf indexName row = [] := by
  rw [Indexed, Bool.not_eq_true, Option.isSome_eq_false_iff, Option.isNone_iff_eq_none] at absent
  rw [entriesOf, absent]
  rfl

theorem flatMap_filter {α β : Type} {items : List α} {keep : α → Bool} {parts : α → List β}
    (dropped : ∀ item ∈ items, keep item = false → parts item = []) :
    (items.filter keep).flatMap parts = items.flatMap parts := by
  induction items with
  | nil => rfl
  | cons item items ih =>
    have rest := ih fun other member => dropped other (mem_cons_of_mem _ member)
    rw [flatMap_cons, ← rest]
    cases kept : keep item with
    | true => rw [filter_cons_of_pos kept, flatMap_cons]
    | false =>
      rw [filter_cons_of_neg (by simp [kept]), dropped item mem_cons_self kept,
        nil_append]

theorem index_filter {keep : Bytes → Row → Bool}
    (kept : ∀ row ∈ content.entries, Indexed indexName row.2 → keep row.1 row.2 = true) :
    index (SortedMap.filter keep content) indexName = index content indexName := by
  rw [index, index, SortedMap.filter, flatMap_filter]
  intro row member dropped
  refine entriesOf_not_indexed fun indexed => ?_
  rw [kept row member indexed] at dropped
  exact Bool.noConfusion dropped

theorem mem_index (member : entry ∈ (index content indexName).entries) :
    ∃ row ∈ content.entries, row.1 = entry.2.primaryKey ∧ Indexed indexName row.2 := by
  have walk : ∀ (entries : List (Bytes × IndexEntry)) (map : SortedMap Bytes IndexEntry),
      entry ∈ (entries.foldl (fun map entry => map.insert entry.1 entry.2) map).entries →
        entry ∈ map.entries ∨ entry ∈ entries := by
    intro entries
    induction entries with
    | nil => exact fun map held => Or.inl held
    | cons first rest ih =>
      intro map held
      rcases ih _ held with inside | later
      · rcases SortedMap.mem_entries_insert.mp inside with rfl | ⟨-, old⟩
        · exact Or.inr mem_cons_self
        · exact Or.inl old
      · exact Or.inr (mem_cons_of_mem _ later)
  rcases walk _ _ member with old | new
  · exact absurd old not_mem_nil
  · obtain ⟨row, held, inside⟩ := mem_flatMap.mp new
    obtain ⟨secondaryKey, asked, rfl⟩ := mem_map.mp inside
    refine ⟨row, held, rfl, ?_⟩
    cases found : row.2.secondaryKeys.find? indexName with
    | none =>
      rw [found] at asked
      exact absurd asked not_mem_nil
    | some keys => rw [Indexed, found]; rfl

/-- The scan of an index depends on the rows with an entry in it only. -/
theorem scanIndexJson_filter
    (kept : ∀ row ∈ content.entries, Indexed indexName row.2 → keep row.1 row.2 = true)
    (start stop : Bytes) :
    scanIndexJson numbers (SortedMap.filter keep content) indexName start stop =
      scanIndexJson numbers content indexName start stop := by
  rw [scanIndexJson, scanIndexJson, index_filter kept]
  refine filterMap_congr fun entry member => ?_
  have inside : entry ∈ (index content indexName).entries :=
    (dropWhile_sublist _).subset ((takeWhile_sublist _).subset member)
  obtain ⟨row, held, same, indexed⟩ := mem_index inside
  have found := SortedMap.find?_of_mem held
  rw [same] at found
  have keeps := kept row held indexed
  rw [same] at keeps
  rw [SortedMap.find?_filter, found, Option.filter, if_pos keeps]

/-- What an operation leaves under its key. -/
def stored (numbers : Numbers) (persistent : Bool) : RowOperation → Option Row
  | .put _ value secondaryKeys => some { value := .bytes value, secondaryKeys }
  | .putJson _ object secondaryKeys =>
    some
      { value := if persistent then .bytes (jsonBytes numbers object) else .json object
        secondaryKeys }
  | .erase _ => none

theorem find?_apply (persistent : Bool) (content : Content) (operation : RowOperation)
    (key : Bytes) : (apply numbers persistent content operation).find? key =
      if key = operation.primaryKey then stored numbers persistent operation
      else content.find? key := by
  by_cases same : key = operation.primaryKey
  · subst same
    rw [if_pos rfl]
    cases operation with
    | put primaryKey value secondaryKeys => exact SortedMap.find?_insert_self _ _ _
    | putJson primaryKey object secondaryKeys => exact SortedMap.find?_insert_self _ _ _
    | erase primaryKey =>
      rw [apply, SortedMap.find?_erase]
      exact if_pos rfl
  · rw [if_neg same]
    cases operation with
    | put primaryKey value secondaryKeys =>
      rw [apply, SortedMap.find?_insert]
      exact if_neg same
    | putJson primaryKey object secondaryKeys =>
      rw [apply, SortedMap.find?_insert]
      exact if_neg same
    | erase primaryKey =>
      rw [apply, SortedMap.find?_erase]
      exact if_neg same

theorem stored_secondaryKeys (kept : stored numbers persistent operation = some row) :
    row.secondaryKeys = operation.secondaryKeys := by
  cases operation with
  | put primaryKey value secondaryKeys =>
    cases kept
    rfl
  | putJson primaryKey object secondaryKeys =>
    cases kept
    rfl
  | erase primaryKey => cases kept

/-- A write keeps what all rows have in common that it stores. -/
theorem entries_write (good : Bytes × Row → Prop) (before : ∀ entry ∈ content.entries, good entry)
    (stores : ∀ operation ∈ batch, ∀ row, stored numbers persistent operation = some row →
      good (operation.primaryKey, row)) :
    ∀ entry ∈ (content.write numbers persistent batch).entries, good entry := by
  induction batch generalizing content with
  | nil => exact before
  | cons operation batch ih =>
    rw [write, foldl_cons]
    refine ih (fun entry member => ?_) fun other later => stores other (mem_cons_of_mem _ later)
    have found := SortedMap.find?_of_mem member
    rw [find?_apply] at found
    split at found
    · rename_i same
      have kept := stores operation mem_cons_self entry.2 found
      rwa [← same] at kept
    · exact before entry (SortedMap.find?_eq_some_iff.mp found)

end Content

end SwStack.EmbeddedDb
