import SwStack.Lib.BoundedLog
import SwStack.RealtimeDb.Fields

/-! The change journal of the realtime database. Every commit of a table is an event with the next
revision; the journal keeps the latest events within its bounds, and a client asks for the events
after its cursor. -/
namespace SwStack.RealtimeDb

open SwStack.Lib SwStack.Types

inductive EventKind where
  | created
  | registered
  | write
  | erase
  | view
  | invalid
  | stale
  deriving DecidableEq

def EventKind.text : EventKind → Bytes
  | created => ascii "created"
  | registered => ascii "registered"
  | write => ascii "write"
  | erase => ascii "erase"
  | view => ascii "view"
  | invalid => ascii "invalid"
  | stale => ascii "stale"

/-- What is recorded of a table: its name, whether it is valid, and what was done to it. -/
structure Commit where
  table : Bytes
  kind : EventKind
  changed : Bool
  valid : Bool
  keys : List Bytes
  evicted : List Bytes

structure Event where
  revision : Nat
  table : Bytes
  json : JsonObject
  changed : Bool
  bytes : Nat

/-- The epoch and the journal of a store. -/
structure JournalState where
  epoch : Bytes
  revision : Nat
  journal : List Event
  journalBytes : Nat

/-- A store that has recorded nothing. -/
def JournalState.initial (epoch : Bytes) : JournalState :=
  { epoch, revision := 0, journal := [], journalBytes := 0 }

def keyArray (keys : List Bytes) : Json := .array (keys.map Json.string)

/-- Large batches are table invalidations: an event names at most 64 keys. -/
def eventJson (revision : Nat) (commit : Commit) : JsonObject :=
  let event : JsonObject := []
  let event := event.insert (ascii "revision") (.string (decimal revision))
  let event := event.insert (ascii "table") (.string commit.table)
  let event := event.insert (ascii "kind") (.string commit.kind.text)
  let event := event.insert (ascii "changed") (.boolean commit.changed)
  let event := event.insert (ascii "valid") (.boolean commit.valid)
  let event := if commit.keys ≠ [] ∧ commit.keys.length ≤ 64 then
    event.insert (ascii "keys") (keyArray commit.keys) else event
  let event := if commit.evicted ≠ [] then
    event.insert (ascii "evicted_count") (.integer (Int32.ofNat commit.evicted.length).toInt64)
    else event
  if commit.evicted ≠ [] ∧ commit.evicted.length ≤ 64 then
    event.insert (ascii "evicted_keys") (keyArray commit.evicted) else event

/-- Drops the oldest events while there are too many or they are too large. -/
def trimJournal : List Event → Nat → List Event × Nat
  | [], journalBytes => ([], journalBytes)
  | event :: rest, journalBytes =>
    if kJournalSize < (event :: rest).length ∨ kJournalBytes < journalBytes then
      trimJournal rest (journalBytes - event.bytes)
    else (event :: rest, journalBytes)

variable (numbers : Numbers)

/-- The size of an event is limited to what the journal can hold. -/
def eventBytes (json : JsonObject) : Except String Nat := do
  let size ← objectSize numbers kJournalBytes 64 json
  return size + 1

/-- Records a commit. The revision advances before the event is measured. -/
def JournalState.record (commit : Commit) (state : JournalState) :
    Except String Unit × JournalState :=
  let revision := (state.revision + 1) % 2 ^ 64
  let json := eventJson revision commit
  match eventBytes numbers json with
  | .error message => (.error message, { state with revision })
  | .ok bytes =>
    let event : Event := { revision, table := commit.table, json, changed := commit.changed, bytes }
    let (journal, journalBytes) :=
      trimJournal (state.journal ++ [event]) (state.journalBytes + bytes)
    (.ok (), { state with revision, journal, journalBytes })

/-- Records commits one after another. -/
def JournalState.run (state : JournalState) : List Commit → List (Except String Unit) × JournalState
  | [] => ([], state)
  | commit :: rest =>
    let (answer, next) := state.record numbers commit
    let (answers, last) := run next rest
    (answer :: answers, last)

/-- A request for changes. No name stands for every table. -/
structure ChangesQuery where
  after : Nat
  epoch : Bytes
  mode : Bytes
  catalog : Bool
  name : Bytes
  tables : Option (List Bytes)
  summary : Bool

def parseTables (request : JsonObject) : Except String (Option (List Bytes)) :=
  if request.contains (ascii "tables") then
    match request.value (ascii "tables") with
    | .array values =>
      if 256 < values.length then .error "changes tables requires at most 256 names"
      else some <$> values.mapM fun value =>
        match value with
        | .string name => do
          validateName name
          return name
        | _ => .error "changes table must be a name"
    | _ => .error "changes tables requires at most 256 names"
  else .ok none

def parseChanges (request : JsonObject) : Except String ChangesQuery := do
  let after ← parseRevision (← requiredString request "after" 20)
  let epoch ← requiredString request "epoch" 128
  let mode ← if request.contains (ascii "mode") then requiredString request "mode" 128
    else .ok (ascii "write")
  let catalog := (request.value (ascii "scope")).toString numbers = ascii "catalog"
  if mode ≠ ascii "write" ∧ mode ≠ (if catalog then ascii "create" else ascii "change") then
    throw "invalid changes mode for scope"
  let name ← if request.contains (ascii "table") then requiredString request "table" 128 else .ok []
  let tables ← parseTables request
  if request.contains (ascii "summary") ∧ ¬ (request.value (ascii "summary")).isBool then
    throw "changes summary must be a boolean"
  return { after, epoch, mode, catalog, name, tables
           summary := (request.value (ascii "summary")).toBool }

/-- Whether a request asks for an event. -/
def ChangesQuery.selects (query : ChangesQuery) (event : Event) : Bool :=
  (query.name = [] || event.table = query.name) &&
    query.tables.all (fun selected => selected.contains event.table) &&
    if query.catalog then (event.json.value (ascii "kind")).toString numbers = ascii "created"
    else query.mode = ascii "write" || event.changed

inductive ChangesContent where
  | events (events : List JsonObject)
  | summary (tables : List Bytes) (catalogChanged : Bool)

structure ChangesReply where
  epoch : Bytes
  revision : Bytes
  resyncRequired : Bool
  content : ChangesContent

/-- Whether the events after a cursor begin before the journal. -/
def precedes (after : Nat) : List Event → Bool
  | [] => false
  | front :: _ => after < (front.revision + 2 ^ 64 - 1) % 2 ^ 64

/-- A cursor of another epoch, from the future or from before the journal. -/
def JournalState.resync (state : JournalState) (query : ChangesQuery) : Bool :=
  query.epoch ≠ state.epoch || state.revision < query.after || precedes query.after state.journal

/-- What is told of the events asked for: each of them, or the tables they are about. -/
def ChangesQuery.content (query : ChangesQuery) (events : List Event) : ChangesContent :=
  if query.summary then
    .summary (SortedMap.ofList (events.map fun event => (event.table, ()))).keys
      (events.any fun event =>
        (event.json.value (ascii "kind")).toString numbers = ascii "created")
  else .events (events.map Event.json)

/-- The journal is in the order of its revisions, so the events above a cursor are its end. -/
def JournalState.changes (state : JournalState) (request : JsonObject) :
    Except String ChangesReply := do
  let query ← parseChanges numbers request
  let resync := state.resync query
  let above := if resync then [] else
    state.journal.dropWhile fun event => decide (event.revision ≤ query.after)
  return { epoch := state.epoch, revision := decimal state.revision, resyncRequired := resync
           content := query.content numbers (above.filter (query.selects numbers)) }

end SwStack.RealtimeDb
