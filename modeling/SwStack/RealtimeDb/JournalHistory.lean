import SwStack.RealtimeDb.Journal
import SwStack.TableDb.Isolation

/-! What the journal tells of the commits recorded. It is the longest end of their events within
its bounds, so a client either gets every event above its cursor or is told to resynchronise. -/
namespace SwStack.RealtimeDb

open SwStack.Lib SwStack.Types List

variable (numbers : Numbers)

/-- What the store checks of a table and of its keys before it records a commit. -/
structure Commit.Recordable (commit : Commit) : Prop where
  name : validateName commit.table = .ok ()
  keys : ∀ key ∈ commit.keys, key.length ≤ 128
  evicted : ∀ key ∈ commit.evicted, key.length ≤ 128

def eventOf (revision : Nat) (commit : Commit) : Event :=
  let json := eventJson revision commit
  { revision, table := commit.table, json, changed := commit.changed
    bytes := compactSize numbers (.object json) + 1 }

/-- The events of commits recorded after a revision. -/
def historyFrom (revision : Nat) : List Commit → List Event
  | [] => []
  | commit :: rest =>
    let next := (revision + 1) % 2 ^ 64
    eventOf numbers next commit :: historyFrom next rest

/-- The events of every commit since the store began. -/
def history (commits : List Commit) : List Event := historyFrom numbers 0 commits

/-- The end of the events that the journal has room for. -/
def latest (events : List Event) : List Event :=
  BoundedLog.trim Event.bytes kJournalSize kJournalBytes events

/-- What a member takes with a comma. -/
def memberSize (member : Bytes × Json) : Nat :=
  stringSize member.1 + compactSize numbers member.2 + 2

variable {commit : Commit}

section

variable {numbers : Numbers}

theorem characterSize_le (character : UInt8) : characterSize character ≤ 6 := by
  unfold characterSize
  split
  · omega
  · split <;> omega

theorem stringSize_le (text : Bytes) : stringSize text ≤ 2 + 6 * text.length := by
  unfold stringSize
  induction text with
  | nil => exact Nat.le_refl _
  | cons character rest ih =>
    have bound := characterSize_le character
    rw [map_cons, sum_cons, length_cons]
    omega

theorem membersSize_le (first : Bool) (members : List (Bytes × Json)) :
    membersSize numbers first members ≤ (members.map (memberSize numbers)).sum := by
  induction members generalizing first with
  | nil => exact Nat.le_refl _
  | cons member rest ih =>
    obtain ⟨key, value⟩ := member
    have later := ih false
    have comma : (if first then 0 else 1) ≤ 1 := by split <;> omega
    rw [membersSize, map_cons, sum_cons, memberSize]
    dsimp only
    omega

theorem sum_insert_le (weight : Bytes × Json → Nat) (object : JsonObject) (key : Bytes)
    (value : Json) : ((object.insert key value).map weight).sum ≤
      (object.map weight).sum + weight (key, value) := by
  unfold JsonObject.insert
  induction object with
  | nil => simp [SortedMap.insertEntry]
  | cons member rest ih =>
    rw [SortedMap.insertEntry]
    split
    · simp only [map_cons, sum_cons]
      omega
    · split
      · simp only [map_cons, sum_cons]
        omega
      · simp only [map_cons, sum_cons]
        omega

theorem keyArray_size {keys : List Bytes} (short : ∀ key ∈ keys, key.length ≤ 128) :
    compactSize numbers (keyArray keys) ≤ 2 + 771 * keys.length := by
  have elements : ∀ (keys : List Bytes) (first : Bool), (∀ key ∈ keys, key.length ≤ 128) →
      elementsSize numbers first (keys.map Json.string) ≤ 771 * keys.length := by
    intro keys
    induction keys with
    | nil => exact fun _ _ => Nat.le_refl _
    | cons key rest ih =>
      intro first short
      have later := ih false fun other member => short other (mem_cons_of_mem _ member)
      have size := stringSize_le key
      have length := short key mem_cons_self
      have comma : (if first then 0 else 1) ≤ 1 := by split <;> omega
      rw [map_cons, elementsSize, compactSize, length_cons]
      omega
  rw [keyArray, compactSize]
  have := elements keys true short
  omega

theorem number_size (value : Int64) : (SwString.number value).length ≤ 20 := by
  have low := value.le_toInt
  have high := value.toInt_lt
  have digits : (decimal value.toInt.natAbs).length ≤ 19 :=
    length_decimal_le (by omega) (by decide)
  rw [SwString.number, integerText]
  split
  · rw [length_cons]
    omega
  · omega

theorem kind_size (kind : EventKind) : stringSize kind.text ≤ 12 := by
  cases kind <;> decide

variable {object : JsonObject} {key : Bytes} {value : Json}

theorem size_insert {total bound : Nat} (smaller : (object.map (memberSize numbers)).sum ≤ total)
    (small : memberSize numbers (key, value) ≤ bound) :
    ((object.insert key value).map (memberSize numbers)).sum ≤ total + bound :=
  (sum_insert_le _ object key value).trans (Nat.add_le_add smaller small)

theorem size_insert_if {condition : Prop} [Decidable condition] {total bound : Nat}
    (smaller : (object.map (memberSize numbers)).sum ≤ total)
    (small : condition → memberSize numbers (key, value) ≤ bound) :
    ((if condition then object.insert key value else object).map
      (memberSize numbers)).sum ≤ total + bound := by
  split
  · rename_i holds
    exact size_insert smaller (small holds)
  · omega

theorem keyArray_member {keys : List Bytes} (label : stringSize key ≤ 14)
    (short : ∀ key ∈ keys, key.length ≤ 128) (few : keys.length ≤ 64) :
    memberSize numbers (key, keyArray keys) ≤ 49362 := by
  have size := @keyArray_size numbers keys short
  unfold memberSize
  dsimp only
  omega

theorem eventJson_size {revision : Nat} {commit : Commit} (small : revision < 2 ^ 64)
    (recordable : commit.Recordable) :
    compactSize numbers (.object (eventJson revision commit)) ≤ 100000 := by
  have number : stringSize (decimal revision) ≤ 122 := by
    have digits : (decimal revision).length ≤ 20 := length_decimal_le (by omega) (by decide)
    have size := stringSize_le (decimal revision)
    omega
  have name : stringSize commit.table ≤ 770 := by
    have length := (length_of_validateName recordable.name).2
    have size := stringSize_le commit.table
    omega
  have members : ((eventJson revision commit).map (memberSize numbers)).sum ≤
      0 + 134 + 779 + 20 + 16 + 14 + 49362 + 37 + 49362 := by
    refine size_insert_if (size_insert_if (size_insert_if (size_insert (size_insert (size_insert
      (size_insert (size_insert (Nat.le_refl _) ?_) ?_) ?_) ?_) ?_) ?_) ?_) ?_
    · have label : stringSize (ascii "revision") = 10 := by decide
      unfold memberSize
      dsimp only
      rw [compactSize]
      omega
    · have label : stringSize (ascii "table") = 7 := by decide
      unfold memberSize
      dsimp only
      rw [compactSize]
      omega
    · have label : stringSize (ascii "kind") = 6 := by decide
      have kind := kind_size commit.kind
      unfold memberSize
      dsimp only
      rw [compactSize]
      omega
    · have label : stringSize (ascii "changed") = 9 := by decide
      unfold memberSize
      dsimp only
      rw [compactSize, label]
      split <;> omega
    · have label : stringSize (ascii "valid") = 7 := by decide
      unfold memberSize
      dsimp only
      rw [compactSize, label]
      split <;> omega
    · exact fun named => keyArray_member (by decide) recordable.keys named.2
    · intro _
      have label : stringSize (ascii "evicted_count") = 15 := by decide
      have digits := number_size (Int32.ofNat commit.evicted.length).toInt64
      unfold memberSize
      dsimp only
      rw [compactSize]
      omega
    · exact fun named => keyArray_member (by decide) recordable.evicted named.2
  have whole := @membersSize_le numbers true (eventJson revision commit)
  rw [compactSize]
  omega

theorem membersCountable_iff : membersCountable maxDepth depth members ↔
      ∀ member ∈ members, IsCountable maxDepth depth member.2 := by
  induction members with
  | nil => simp [membersCountable]
  | cons member rest ih =>
    obtain ⟨key, value⟩ := member
    rw [membersCountable, ih, forall_mem_cons]

theorem countable_insert
    (others : ∀ member ∈ object, IsCountable 64 1 member.2) (this : IsCountable 64 1 value) :
    ∀ member ∈ object.insert key value, IsCountable 64 1 member.2 := by
  intro member within
  rcases SortedMap.mem_insertEntry within with rfl | old
  · exact this
  · exact others member old

theorem countable_keyArray (keys : List Bytes) : IsCountable 64 1 (keyArray keys) := by
  refine ⟨by decide, ?_⟩
  induction keys with
  | nil => trivial
  | cons key rest ih => exact ⟨(by decide : 1 + 1 ≤ 64), ih⟩

theorem eventJson_countable (revision : Nat) (commit : Commit) :
    IsCountable 64 0 (.object (eventJson revision commit)) := by
  have optional : ∀ {condition : Prop} [Decidable condition] {object : JsonObject} {key : Bytes}
      {value : Json}, (∀ member ∈ object, IsCountable 64 1 member.2) → IsCountable 64 1 value →
      ∀ member ∈ if condition then object.insert key value else object,
        IsCountable 64 1 member.2 := by
    intro condition _ object key value others this
    split
    · exact countable_insert others this
    · exact others
  have flat : ∀ {value : Json}, (1 ≤ 64 → IsCountable 64 1 value) → IsCountable 64 1 value :=
    fun holds => holds (by decide)
  refine ⟨by decide, membersCountable_iff.mpr ?_⟩
  refine optional (optional (optional (countable_insert (countable_insert (countable_insert
    (countable_insert (countable_insert (fun member within => absurd within not_mem_nil)
      (flat id)) (flat id)) (flat id)) (flat id)) (flat id)) (countable_keyArray _)) (flat id))
    (countable_keyArray _)

theorem eventBytes_ok {revision : Nat} {commit : Commit} (small : revision < 2 ^ 64)
    (recordable : commit.Recordable) :
    eventBytes numbers (eventJson revision commit) =
      .ok (eventOf numbers revision commit).bytes := by
  have size := @eventJson_size numbers _ _ small recordable
  have counted := @addValue_ok numbers kJournalBytes 64 0 0 _
    (eventJson_countable revision commit) (by rw [kJournalBytes]; omega)
  rw [eventBytes, objectSize, counted, Nat.zero_add]
  rfl

theorem eventOf_size (small : revision < 2 ^ 64)
    (recordable : commit.Recordable) : (eventOf numbers revision commit).bytes ≤ 100001 :=
  Nat.succ_le_succ (eventJson_size small recordable)

end

theorem trimJournal_sum (events : List Event) :
    trimJournal events (events.map Event.bytes).sum =
      (latest events, ((latest events).map Event.bytes).sum) := by
  induction events with
  | nil => rfl
  | cons event rest ih =>
    rw [trimJournal, latest, BoundedLog.trim]
    split
    · rename_i large
      have cut : ¬ BoundedLog.Fits Event.bytes kJournalSize kJournalBytes (event :: rest) := by
        rintro ⟨count, total⟩
        omega
      rw [if_neg cut, map_cons, sum_cons, Nat.add_sub_cancel_left, ih]
      rfl
    · rename_i small
      have fits : BoundedLog.Fits Event.bytes kJournalSize kJournalBytes (event :: rest) := by
        constructor <;> omega
      rw [if_pos fits]

theorem historyFrom_append (revision : Nat) (early more : List Commit) :
    historyFrom numbers revision (early ++ more) = historyFrom numbers revision early ++
      historyFrom numbers ((revision + early.length) % 2 ^ 64) more := by
  induction early generalizing revision with
  | nil =>
    cases more with
    | nil => rfl
    | cons commit rest =>
      simp only [nil_append, length_nil, Nat.add_zero, historyFrom]
      rw [Nat.mod_add_mod]
  | cons commit rest ih =>
    rw [cons_append, historyFrom, historyFrom, ih, length_cons, Nat.mod_add_mod]
    rw [Nat.add_right_comm, Nat.add_assoc revision rest.length 1]
    rfl

/-- The store after events of commits. -/
def stateAfter (epoch : Bytes) (commits : List Commit) : JournalState :=
  let journal := latest (history numbers commits)
  { epoch, revision := commits.length % 2 ^ 64, journal
    journalBytes := (journal.map Event.bytes).sum }

theorem record_stateAfter (epoch : Bytes) (commits : List Commit) (recordable : commit.Recordable) :
    (stateAfter numbers epoch commits).record numbers commit =
      (.ok (), stateAfter numbers epoch (commits ++ [commit])) := by
  have small : (commits.length % 2 ^ 64 + 1) % 2 ^ 64 < 2 ^ 64 := Nat.mod_lt _ (by decide)
  have measured := @eventBytes_ok numbers _ _ small recordable
  have length : (commits ++ [commit]).length % 2 ^ 64 = (commits.length % 2 ^ 64 + 1) % 2 ^ 64 := by
    rw [Nat.mod_add_mod, length_append, length_singleton]
  have extended : history numbers (commits ++ [commit]) = history numbers commits ++
      [eventOf numbers ((commits.length % 2 ^ 64 + 1) % 2 ^ 64) commit] := by
    rw [history, historyFrom_append, Nat.zero_add]
    rfl
  unfold JournalState.record stateAfter
  rw [extended, length]
  generalize (commits.length % 2 ^ 64 + 1) % 2 ^ 64 = revision at measured
  have pushed : trimJournal (latest (history numbers commits) ++ [eventOf numbers revision commit])
      (((latest (history numbers commits)).map Event.bytes).sum +
        (eventOf numbers revision commit).bytes) =
      (latest (history numbers commits ++ [eventOf numbers revision commit]),
        ((latest (history numbers commits ++
          [eventOf numbers revision commit])).map Event.bytes).sum) := by
    have total := trimJournal_sum
      (latest (history numbers commits) ++ [eventOf numbers revision commit])
    rw [map_append, sum_append, map_singleton, sum_singleton] at total
    have trimmed : latest (latest (history numbers commits) ++
        [eventOf numbers revision commit]) =
          latest (history numbers commits ++ [eventOf numbers revision commit]) :=
      BoundedLog.trim_append_trim _ _
    rw [total, trimmed]
  dsimp only
  rw [measured]
  exact congrArg (fun kept : List Event × Nat => (Except.ok (), ({
    epoch, revision, journal := kept.1, journalBytes := kept.2 } : JournalState))) pushed

theorem run_stateAfter (epoch : Bytes) (early : List Commit)
    (recordable : ∀ commit ∈ commits, commit.Recordable) :
    (stateAfter numbers epoch early).run numbers commits =
      (commits.map fun _ => .ok (), stateAfter numbers epoch (early ++ commits)) := by
  induction commits generalizing early with
  | nil => rw [JournalState.run, append_nil, map_nil]
  | cons commit rest ih =>
    obtain ⟨first, others⟩ := forall_mem_cons.mp recordable
    rw [JournalState.run, record_stateAfter numbers epoch early first]
    dsimp only
    rw [ih (early ++ [commit]) others, append_assoc, map_cons]
    rfl

/-- The events that a request asks for among all that were recorded. -/
def asked (commits : List Commit) (query : ChangesQuery) : List Event :=
  (history numbers commits).filter fun event =>
    decide (query.after < event.revision) && query.selects numbers event

/-- An event above the cursor has left the journal. -/
def Dropped (commits : List Commit) (state : JournalState) (after : Nat) : Prop :=
  ∃ event ∈ history numbers commits, after < event.revision ∧ event ∉ state.journal

/-- The journal after commits: their latest events, within its bounds. -/
structure Journaled (commits : List Commit) (state : JournalState) : Prop where
  revision : state.revision = commits.length
  numbered : (history numbers commits).map Event.revision = List.range' 1 commits.length
  latest : state.journal <:+ history numbers commits
  consecutive : state.journal.map Event.revision =
    List.range' (commits.length + 1 - state.journal.length) state.journal.length
  last : commits ≠ [] → state.journal ≠ []
  count : state.journal.length ≤ kJournalSize
  bytes : (state.journal.map Event.bytes).sum ≤ kJournalBytes

/-- The answer to a request for changes. -/
structure Answers (commits : List Commit) (state : JournalState) (query : ChangesQuery)
    (reply : ChangesReply) : Prop where
  resync : reply.resyncRequired = true ↔ query.epoch ≠ state.epoch ∨
    commits.length < query.after ∨ Dropped numbers commits state query.after
  events : reply.resyncRequired = false →
    reply.content = query.content numbers (asked numbers commits query)
  nothing : reply.resyncRequired = true → reply.content = query.content numbers []
  epoch : reply.epoch = state.epoch
  cursor : parseRevision reply.revision = .ok commits.length
  table : query.catalog = false → query.mode = ascii "write" → query.tables = none →
    query.name ≠ [] → ∀ event, event ∈ asked numbers commits query ↔
      event ∈ history numbers commits ∧ query.after < event.revision ∧ event.table = query.name
  continues : query.after ≤ commits.length → ∀ more : List Commit,
    commits.length + more.length < 2 ^ 64 →
      asked numbers (commits ++ more) query = asked numbers commits query ++
        asked numbers (commits ++ more) { query with after := commits.length }

section

variable {numbers : Numbers} {commits : List Commit}

theorem length_history (revision : Nat) (commits : List Commit) :
    (historyFrom numbers revision commits).length = commits.length := by
  induction commits generalizing revision with
  | nil => rfl
  | cons commit rest ih => rw [historyFrom, length_cons, ih, length_cons]

theorem revisions_historyFrom {revision : Nat} (short : revision + commits.length < 2 ^ 64) :
    (historyFrom numbers revision commits).map Event.revision =
      List.range' (revision + 1) commits.length := by
  induction commits generalizing revision with
  | nil => rfl
  | cons commit rest ih =>
    rw [length_cons] at short ⊢
    have next : (revision + 1) % 2 ^ 64 = revision + 1 := Nat.mod_eq_of_lt (by omega)
    rw [historyFrom, next, map_cons, ih (by omega), range'_succ]
    rfl

theorem revision_mem_history (short : commits.length < 2 ^ 64)
    (recorded : event ∈ history numbers commits) :
    1 ≤ event.revision ∧ event.revision ≤ commits.length := by
  have member := (mem_map_of_mem recorded : _ ∈ List.map Event.revision _)
  rw [history, revisions_historyFrom (by omega), mem_range'_1] at member
  omega

theorem history_split (commits : List Commit) :
    ∃ dropped, history numbers commits = dropped ++ latest (history numbers commits) ∧
      dropped.length + (latest (history numbers commits)).length = commits.length := by
  obtain ⟨dropped, whole⟩ := @BoundedLog.trim_suffix _ Event.bytes kJournalSize kJournalBytes
    (history numbers commits)
  refine ⟨dropped, whole.symm, ?_⟩
  have length := congrArg List.length whole
  rw [length_append, history, length_history] at length
  exact length

theorem revisions_split (short : commits.length < 2 ^ 64)
    (whole : history numbers commits = dropped ++ kept) :
    dropped.map Event.revision = List.range' 1 dropped.length ∧
      kept.map Event.revision = List.range' (dropped.length + 1) kept.length := by
  have numbered : (history numbers commits).map Event.revision = List.range' 1 commits.length :=
    @revisions_historyFrom numbers commits 0 (by omega)
  have length : commits.length = dropped.length + kept.length := by
    rw [← length_append, ← whole, history, length_history]
  rw [whole, map_append, length, ← range'_append_1, Nat.add_comm 1] at numbered
  exact append_inj numbered (by rw [length_map, length_range'])

theorem two_fit (old : older.bytes ≤ 100001) (new : newer.bytes ≤ 100001) :
    BoundedLog.Fits Event.bytes kJournalSize kJournalBytes [older, newer] := by
  constructor
  · exact (by decide : 2 ≤ 256)
  · rw [map_cons, map_singleton, sum_cons, sum_singleton, kJournalBytes]
    omega

theorem size_of_history (recordable : ∀ commit ∈ commits, commit.Recordable) :
    ∀ event ∈ history numbers commits, event.bytes ≤ 100001 := by
  have each : ∀ revision, ∀ event ∈ historyFrom numbers revision commits,
      event.bytes ≤ 100001 := by
    induction commits with
    | nil => exact fun _ _ member => absurd member not_mem_nil
    | cons commit rest ih =>
      intro revision event member
      obtain ⟨first, others⟩ := forall_mem_cons.mp recordable
      rcases mem_cons.mp member with rfl | later
      · exact eventOf_size (Nat.mod_lt _ (by decide)) first
      · exact ih others _ event later
  exact each 0

theorem latest_ne_nil (recordable : ∀ commit ∈ commits, commit.Recordable)
    (nonempty : commits ≠ []) : latest (history numbers commits) ≠ [] := by
  intro empty
  have recorded : history numbers commits ≠ [] := by
    intro empty
    have length := @length_history numbers 0 commits
    rw [← history, empty] at length
    exact nonempty (length_eq_zero_iff.mp length.symm)
  have size := @size_of_history numbers _ recordable _ (getLast_mem recorded)
  have fits : BoundedLog.Fits Event.bytes kJournalSize kJournalBytes
      [(history numbers commits).getLast recorded] :=
    @BoundedLog.Fits.of_append _ _ _ _ _ [(history numbers commits).getLast recorded]
      (two_fit size size)
  have kept := BoundedLog.suffix_trim ⟨_, dropLast_append_getLast recorded⟩ fits
  rw [← latest, empty] at kept
  exact absurd (suffix_nil.mp kept) (cons_ne_nil _ _)

theorem journaled_stateAfter (epoch : Bytes) (recordable : ∀ commit ∈ commits, commit.Recordable)
    (short : commits.length < 2 ^ 64) :
    Journaled numbers commits (stateAfter numbers epoch commits) := by
  obtain ⟨dropped, whole, length⟩ := @history_split numbers commits
  have fits := @BoundedLog.trim_fits _ Event.bytes kJournalSize kJournalBytes
    (history numbers commits)
  constructor
  · exact Nat.mod_eq_of_lt short
  · exact revisions_historyFrom (by omega)
  · exact BoundedLog.trim_suffix _
  · have kept := (revisions_split short whole).2
    have first : commits.length + 1 - (latest (history numbers commits)).length =
        dropped.length + 1 := by omega
    rwa [← first] at kept
  · exact latest_ne_nil recordable
  · exact fits.1
  · exact fits.2

/-- What was dropped lies below the first revision kept. -/
theorem dropped_iff (short : commits.length < 2 ^ 64) (epoch : Bytes)
    (whole : history numbers commits = dropped ++ latest (history numbers commits))
    (after : Nat) : Dropped numbers commits (stateAfter numbers epoch commits) after ↔
      after < dropped.length := by
  obtain ⟨below, above⟩ := revisions_split short whole
  constructor
  · rintro ⟨event, recorded, newer, gone⟩
    rw [whole] at recorded
    rcases mem_append.mp recorded with early | kept
    · have member := (mem_map_of_mem early : _ ∈ List.map Event.revision _)
      rw [below, mem_range'_1] at member
      omega
    · exact absurd kept gone
  · intro under
    have member : dropped.length ∈ dropped.map Event.revision := by
      rw [below, mem_range'_1]
      omega
    obtain ⟨event, early, revision⟩ := mem_map.mp member
    refine ⟨event, whole ▸ mem_append_left _ early, by omega, fun kept => ?_⟩
    have later := (mem_map_of_mem kept : _ ∈ List.map Event.revision _)
    change event.revision ∈ (latest (history numbers commits)).map Event.revision at later
    rw [above, mem_range'_1] at later
    omega

theorem resync_stateAfter (recordable : ∀ commit ∈ commits, commit.Recordable)
    (short : commits.length < 2 ^ 64) (epoch : Bytes) (query : ChangesQuery) :
    (stateAfter numbers epoch commits).resync query = true ↔ query.epoch ≠ epoch ∨
      commits.length < query.after ∨
        Dropped numbers commits (stateAfter numbers epoch commits) query.after := by
  obtain ⟨dropped, whole, length⟩ := @history_split numbers commits
  have revision : (stateAfter numbers epoch commits).revision = commits.length :=
    Nat.mod_eq_of_lt short
  rw [JournalState.resync, Bool.or_eq_true, Bool.or_eq_true, decide_eq_true_iff,
    decide_eq_true_iff, revision, dropped_iff short epoch whole, or_assoc]
  refine or_congr_right (or_congr_right ?_)
  change precedes query.after (latest (history numbers commits)) = true ↔ _
  have kept := (revisions_split short whole).2
  cases journal : latest (history numbers commits) with
  | nil =>
    rw [journal, length_nil] at length
    have empty : commits = [] := by
      by_contra some
      exact latest_ne_nil recordable some journal
    rw [empty, length_nil] at length
    simp [precedes]
    omega
  | cons front rest =>
    rw [journal, map_cons, length_cons, range'_succ] at kept
    have first : front.revision = dropped.length + 1 := (cons_eq_cons.mp kept).1
    rw [journal, length_cons] at length
    have wrapped : (front.revision + 2 ^ 64 - 1) % 2 ^ 64 = dropped.length := by omega
    rw [precedes, wrapped, decide_eq_true_iff]

/-- The journal is in order, so its end above a cursor is what a filter keeps. -/
theorem dropWhile_revision {events : List Event}
    (numbered : events.map Event.revision = List.range' first events.length) (after : Nat) :
    events.dropWhile (fun event => decide (event.revision ≤ after)) =
      events.filter fun event => decide (after < event.revision) := by
  induction events generalizing first with
  | nil => rfl
  | cons event rest ih =>
    rw [map_cons, length_cons, range'_succ] at numbered
    obtain ⟨this, later⟩ := cons_eq_cons.mp numbered
    rw [dropWhile_cons, filter_cons]
    by_cases old : event.revision ≤ after
    · rw [if_pos (decide_eq_true old), if_neg (by simpa using old)]
      exact ih later
    · rw [if_neg (by simpa using old), if_pos (by simpa using old), filter_eq_self.mpr]
      intro other member
      have above := (mem_map_of_mem member : _ ∈ List.map Event.revision _)
      rw [later, mem_range'_1] at above
      exact decide_eq_true (by omega)

variable {query : ChangesQuery}

theorem asked_append (short : commits.length < 2 ^ 64) (past : query.after ≤ commits.length)
    (total : commits.length + more.length < 2 ^ 64) :
    asked numbers (commits ++ more) query = asked numbers commits query ++
      asked numbers (commits ++ more) { query with after := commits.length } := by
  have extended : history numbers (commits ++ more) =
      history numbers commits ++ historyFrom numbers commits.length more := by
    rw [history, historyFrom_append, Nat.zero_add, Nat.mod_eq_of_lt short]
    rfl
  have newer : ∀ event ∈ historyFrom numbers commits.length more,
      commits.length < event.revision := by
    intro event member
    have revision := (mem_map_of_mem member : _ ∈ List.map Event.revision _)
    rw [revisions_historyFrom total, mem_range'_1] at revision
    omega
  have older : (history numbers commits).filter (fun event =>
      decide (commits.length < event.revision) && query.selects numbers event) = [] := by
    rw [filter_eq_nil_iff]
    intro event member both
    have revision := revision_mem_history short member
    have above := of_decide_eq_true (Bool.and_eq_true_iff.mp both).1
    omega
  rw [asked, asked, asked, extended, filter_append, filter_append]
  change _ = _ ++ ((history numbers commits).filter (fun event =>
    decide (commits.length < event.revision) && query.selects numbers event) ++
      (historyFrom numbers commits.length more).filter (fun event =>
        decide (commits.length < event.revision) && query.selects numbers event))
  rw [older, nil_append]
  congr 1
  refine filter_congr fun event member => ?_
  have above := newer event member
  rw [decide_eq_true above, decide_eq_true (by omega)]

theorem mem_asked_table (all : query.catalog = false)
    (every : query.mode = ascii "write") (unlisted : query.tables = none)
    (named : query.name ≠ []) : event ∈ asked numbers commits query ↔
      event ∈ history numbers commits ∧ query.after < event.revision ∧
        event.table = query.name := by
  have selected : query.selects numbers event = decide (event.table = query.name) := by
    simp [ChangesQuery.selects, all, every, unlisted, named]
  rw [asked, mem_filter, Bool.and_eq_true, decide_eq_true_iff, selected, decide_eq_true_iff]

theorem answers_stateAfter (recordable : ∀ commit ∈ commits, commit.Recordable)
    (short : commits.length < 2 ^ 64) (epoch : Bytes) {request : JsonObject}
    (parsed : parseChanges numbers request = .ok query) :
    ∃ reply, (stateAfter numbers epoch commits).changes numbers request = .ok reply ∧
      Answers numbers commits (stateAfter numbers epoch commits) query reply := by
  have resync := @resync_stateAfter numbers commits recordable short epoch query
  unfold JournalState.changes
  rw [parsed]
  refine ⟨_, rfl, ?_⟩
  constructor
  · exact resync
  · intro answered
    obtain ⟨dropped, whole, -⟩ := @history_split numbers commits
    have nothing : ¬ query.after < dropped.length := by
      intro under
      have needed := resync.mpr
        (.inr (.inr ((dropped_iff short epoch whole query.after).mpr under)))
      exact absurd (answered.symm.trans needed) Bool.false_ne_true
    obtain ⟨below, above⟩ := revisions_split short whole
    dsimp only at answered ⊢
    rw [answered, if_neg Bool.false_ne_true]
    congr 1
    change ((latest (history numbers commits)).dropWhile _).filter _ = _
    rw [dropWhile_revision above, filter_filter, asked]
    conv_rhs => rw [whole, filter_append]
    have old : dropped.filter (fun event =>
        decide (query.after < event.revision) && query.selects numbers event) = [] := by
      rw [filter_eq_nil_iff]
      intro event member both
      have revision := (mem_map_of_mem member : _ ∈ List.map Event.revision _)
      rw [below, mem_range'_1] at revision
      have above := of_decide_eq_true (Bool.and_eq_true_iff.mp both).1
      omega
    rw [old, nil_append]
    exact filter_congr fun event _ => Bool.and_comm _ _
  · intro needed
    dsimp only at needed ⊢
    rw [needed, if_pos rfl]
    rfl
  · rfl
  · change parseRevision (decimal (commits.length % 2 ^ 64)) = _
    rw [Nat.mod_eq_of_lt short]
    exact parseRevision_decimal short
  · exact fun all every unlisted named event => mem_asked_table all every unlisted named
  · exact fun past more total => asked_append short past total

/-- The last two of 2 ^ 64 commits stay in the journal, the second of them with revision zero. -/
theorem revisions_wrap (length : early.length = 2 ^ 64 - 1)
    (recordable : ∀ recorded ∈ early ++ [commit], recorded.Recordable) :
    (latest (history numbers (early ++ [commit]))).map Event.revision ≠
      List.range' ((early ++ [commit]).length % 2 ^ 64 + 1 -
        (latest (history numbers (early ++ [commit]))).length)
        (latest (history numbers (early ++ [commit]))).length := by
  intro consecutive
  have extended : history numbers (early ++ [commit]) =
      history numbers early ++ [eventOf numbers 0 commit] := by
    rw [history, historyFrom_append, length]
    rfl
  have recorded : history numbers early ≠ [] := by
    intro empty
    have count := @length_history numbers 0 early
    rw [← history, empty, length_nil] at count
    omega
  have older : (history numbers early).getLast recorded ∈ history numbers early :=
    getLast_mem recorded
  have newest : eventOf numbers 0 commit ∈ history numbers (early ++ [commit]) := by
    rw [extended]
    exact mem_append_right _ (mem_singleton_self _)
  have sizes := @size_of_history numbers _ recordable
  have suffix : [(history numbers early).getLast recorded, eventOf numbers 0 commit] <:+
      history numbers (early ++ [commit]) := by
    refine ⟨(history numbers early).dropLast, ?_⟩
    rw [extended]
    conv_rhs => rw [← dropLast_append_getLast recorded]
    rw [append_assoc]
    rfl
  have kept := BoundedLog.suffix_trim suffix
    (two_fit (sizes _ (extended ▸ mem_append_left _ older)) (sizes _ newest))
  have ordered : ((latest (history numbers (early ++ [commit]))).map Event.revision).Pairwise
      (· < ·) := consecutive ▸ pairwise_lt_range'
  have ascending := ordered.sublist (kept.map Event.revision).sublist
  rw [map_cons, map_singleton, pairwise_pair] at ascending
  exact absurd ascending (Nat.not_lt_zero _)

end

/-- However commits are recorded, the journal is their latest events within its bounds, and a
client of the epoch gets exactly the events above its cursor until one of them has been dropped. -/
theorem journal_answers (numbers : Numbers) (epoch : Bytes) (commits : List Commit)
    (recordable : ∀ commit ∈ commits, commit.Recordable) (short : commits.length < 2 ^ 64) :
    ((JournalState.initial epoch).run numbers commits).1 = commits.map (fun _ => .ok ()) ∧
    Journaled numbers commits ((JournalState.initial epoch).run numbers commits).2 ∧
    ∀ request query, parseChanges numbers request = .ok query →
      ∃ reply, ((JournalState.initial epoch).run numbers commits).2.changes numbers request =
          .ok reply ∧
        Answers numbers commits ((JournalState.initial epoch).run numbers commits).2 query
          reply := by
  have ran := run_stateAfter numbers epoch [] recordable
  rw [nil_append] at ran
  have start : JournalState.initial epoch = stateAfter numbers epoch [] := rfl
  rw [start, ran]
  exact ⟨rfl, journaled_stateAfter epoch recordable short,
    fun request query parsed => answers_stateAfter recordable short epoch parsed⟩

def plainCommit : Commit :=
  { table := ascii "t", kind := .write, changed := true, valid := true
    keys := [ascii "k"], evicted := [] }

/-- A write, another table, and an erasure that evicts a key. -/
def mixedCommits : List Commit :=
  [plainCommit,
    { table := ascii "u", kind := .created, changed := true, valid := true
      keys := [], evicted := [] },
    { table := ascii "t", kind := .erase, changed := true, valid := true
      keys := [ascii "k", ascii "l"], evicted := [ascii "m"] }]

theorem mixedCommits_recordable : ∀ commit ∈ mixedCommits, commit.Recordable := by
  have letters : ∀ commit ∈ mixedCommits, ∀ key ∈ commit.keys ++ commit.evicted,
      key.length ≤ 128 := by decide
  have names : ∀ commit ∈ mixedCommits, validateName commit.table = .ok () := by
    intro commit member
    fin_cases member <;> rfl
  exact fun commit member => ⟨names commit member,
    fun key held => letters commit member key (mem_append_left _ held),
    fun key held => letters commit member key (mem_append_right _ held)⟩

def epochRequest (epoch : Bytes) : JsonObject :=
  [(ascii "after", .string (ascii "0")), (ascii "epoch", .string epoch)]

/-- What changed in a table since the first commit. -/
def tableRequest : JsonObject :=
  [(ascii "after", .string (ascii "1")), (ascii "epoch", .string (ascii "a")),
    (ascii "table", .string (ascii "t"))]

theorem journal_answers_mixedCommits :
    Journaled bitsNumbers mixedCommits
      ((JournalState.initial (ascii "a")).run bitsNumbers mixedCommits).2 ∧
    ∃ query reply, parseChanges bitsNumbers tableRequest = .ok query ∧
      ((JournalState.initial (ascii "a")).run bitsNumbers mixedCommits).2.changes bitsNumbers
        tableRequest = .ok reply ∧
      Answers bitsNumbers mixedCommits
        ((JournalState.initial (ascii "a")).run bitsNumbers mixedCommits).2 query reply ∧
      (asked bitsNumbers mixedCommits query).map Event.revision = [3] := by
  obtain ⟨-, journaled, answered⟩ := journal_answers bitsNumbers (ascii "a") mixedCommits
    mixedCommits_recordable (by decide)
  obtain ⟨reply, changes, answers⟩ := answered tableRequest _ rfl
  exact ⟨journaled, _, reply, rfl, changes, answers, by decide +kernel⟩

/-- A cursor of another epoch is refused though nothing was dropped, and after 2 ^ 64 commits the
revisions begin anew. -/
theorem journal_fails_of_epoch_and_overflow :
    (∃ reply, (JournalState.initial (ascii "a")).changes bitsNumbers (epochRequest (ascii "b")) =
        .ok reply ∧ reply.resyncRequired = true ∧
      ¬ Dropped bitsNumbers [] (JournalState.initial (ascii "a")) 0) ∧
    ∃ commits : List Commit, (∀ commit ∈ commits, commit.Recordable) ∧
      let state := ((JournalState.initial (ascii "a")).run bitsNumbers commits).2
      state.journal.map Event.revision ≠
        List.range' (state.revision + 1 - state.journal.length) state.journal.length := by
  constructor
  · refine ⟨_, rfl, rfl, ?_⟩
    rintro ⟨event, recorded, -, -⟩
    exact absurd recorded not_mem_nil
  · have plain := mixedCommits_recordable plainCommit mem_cons_self
    obtain ⟨early, length, earlier⟩ : ∃ early : List Commit, early.length = 2 ^ 64 - 1 ∧
        ∀ commit ∈ early, commit.Recordable :=
      ⟨List.replicate (2 ^ 64 - 1) plainCommit, length_replicate, fun commit member =>
        (mem_replicate.mp member).2 ▸ plain⟩
    have recordable : ∀ commit ∈ early ++ [plainCommit], commit.Recordable := by
      intro commit member
      rcases mem_append.mp member with older | newest
      · exact earlier commit older
      · exact mem_singleton.mp newest ▸ plain
    refine ⟨early ++ [plainCommit], recordable, ?_⟩
    have ran := run_stateAfter bitsNumbers (ascii "a") [] recordable
    rw [nil_append] at ran
    have start : JournalState.initial (ascii "a") = stateAfter bitsNumbers (ascii "a") [] := rfl
    rw [start, ran]
    exact revisions_wrap length recordable

end SwStack.RealtimeDb
