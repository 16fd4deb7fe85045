import Mathlib

/-! Finite maps kept as a key-sorted entry list, the order an in-order walk of a
balanced tree visits. The order is a field, so equality of maps is equality of
lookups and every walk is in key order. -/
namespace SwStack.Lib

open List

structure SortedMap (κ : Type u) (ν : Type v) [LinearOrder κ] where
  entries : List (κ × ν)
  ordered : entries.Pairwise fun left right => left.1 < right.1

namespace SortedMap

variable {κ : Type u} {ν : Type v} {μ : Type w} [LinearOrder κ]

instance [DecidableEq ν] : DecidableEq (SortedMap κ ν) := fun left right =>
  decidable_of_iff (left.entries = right.entries) <| by
    cases left
    cases right
    simp

def empty : SortedMap κ ν := ⟨[], .nil⟩

instance : EmptyCollection (SortedMap κ ν) := ⟨empty⟩
instance : Inhabited (SortedMap κ ν) := ⟨empty⟩

def find? (map : SortedMap κ ν) (key : κ) : Option ν := map.entries.lookup key

def contains (map : SortedMap κ ν) (key : κ) : Bool := (map.find? key).isSome

def keys (map : SortedMap κ ν) : List κ := map.entries.map Prod.fst

def values (map : SortedMap κ ν) : List ν := map.entries.map Prod.snd

def isEmpty (map : SortedMap κ ν) : Bool := map.entries.isEmpty

def insertEntry (key : κ) (value : ν) : List (κ × ν) → List (κ × ν)
  | [] => [(key, value)]
  | entry :: rest =>
    if key < entry.1 then (key, value) :: entry :: rest
    else if key = entry.1 then (key, value) :: rest
    else entry :: insertEntry key value rest

theorem mem_insertEntry {key : κ} {value : ν} {entry : κ × ν} {entries : List (κ × ν)}
    (member : entry ∈ insertEntry key value entries) :
    entry = (key, value) ∨ entry ∈ entries := by
  induction entries with
  | nil => simpa [insertEntry] using member
  | cons first rest ih =>
    simp only [insertEntry] at member
    split at member
    · simpa using member
    · split at member
      · rcases mem_cons.mp member with same | member
        · exact .inl same
        · exact .inr (mem_cons_of_mem _ member)
      · rcases mem_cons.mp member with same | member
        · exact .inr (by simp [same])
        · exact (ih member).imp id (mem_cons_of_mem _)

theorem insertEntry_ordered {key : κ} {value : ν} {entries : List (κ × ν)}
    (ordered : entries.Pairwise fun left right => left.1 < right.1) :
    (insertEntry key value entries).Pairwise fun left right => left.1 < right.1 := by
  induction entries with
  | nil => simp [insertEntry]
  | cons first rest ih =>
    obtain ⟨above, tail⟩ := pairwise_cons.mp ordered
    simp only [insertEntry]
    split
    · rename_i below
      refine pairwise_cons.mpr ⟨?_, ordered⟩
      intro entry member
      rcases mem_cons.mp member with rfl | member
      · exact below
      · exact below.trans (above entry member)
    · split
      · rename_i same
        exact pairwise_cons.mpr ⟨fun entry member => same ▸ above entry member, tail⟩
      · rename_i notBelow notSame
        refine pairwise_cons.mpr ⟨?_, ih tail⟩
        intro entry member
        rcases mem_insertEntry member with rfl | member
        · exact lt_of_le_of_ne (not_lt.mp notBelow) (Ne.symm notSame)
        · exact above entry member

def insert (map : SortedMap κ ν) (key : κ) (value : ν) : SortedMap κ ν :=
  ⟨insertEntry key value map.entries, insertEntry_ordered map.ordered⟩

def filter (keep : κ → ν → Bool) (map : SortedMap κ ν) : SortedMap κ ν :=
  ⟨map.entries.filter fun entry => keep entry.1 entry.2, map.ordered.filter _⟩

def erase (map : SortedMap κ ν) (key : κ) : SortedMap κ ν :=
  map.filter fun other _ => decide (other ≠ key)

def mapValues (change : κ → ν → μ) (map : SortedMap κ ν) : SortedMap κ μ :=
  ⟨map.entries.map fun entry => (entry.1, change entry.1 entry.2), by
    rw [pairwise_map]
    exact map.ordered⟩

/-- The entries a walk from the lower bound of `start` visits. -/
def fromKey (map : SortedMap κ ν) (start : κ) : List (κ × ν) :=
  map.entries.dropWhile fun entry => entry.1 < start

/-- The entry one step back from the lower bound of `key`. -/
def before? (map : SortedMap κ ν) (key : κ) : Option (κ × ν) :=
  (map.entries.takeWhile fun entry => entry.1 < key).getLast?

/-- The entry one step back from the upper bound of `key`. -/
def floor? (map : SortedMap κ ν) (key : κ) : Option (κ × ν) :=
  (map.entries.takeWhile fun entry => entry.1 ≤ key).getLast?

def ofList (entries : List (κ × ν)) : SortedMap κ ν :=
  entries.foldl (fun map entry => map.insert entry.1 entry.2) empty

@[ext] theorem ext_entries {left right : SortedMap κ ν} (same : left.entries = right.entries) :
    left = right := by
  cases left
  cases right
  cases same
  rfl

theorem lookup_eq_some_iff {key : κ} {value : ν} {entries : List (κ × ν)}
    (ordered : entries.Pairwise fun left right => left.1 < right.1) :
    entries.lookup key = some value ↔ (key, value) ∈ entries := by
  induction entries with
  | nil => simp
  | cons first rest ih =>
    obtain ⟨above, tail⟩ := pairwise_cons.mp ordered
    obtain ⟨first, found⟩ := first
    by_cases same : key = first
    · subst same
      have absent : (key, value) ∉ rest := fun member =>
        lt_irrefl _ (above (key, value) member)
      simp only [lookup_cons_self, Option.some.injEq, mem_cons, Prod.mk.injEq, true_and,
        absent, or_false]
      exact eq_comm
    · have unequal : (key == first) = false := by simpa using same
      simp [List.lookup, unequal, ih tail, same]

theorem find?_eq_some_iff {map : SortedMap κ ν} {key : κ} {value : ν} :
    map.find? key = some value ↔ (key, value) ∈ map.entries :=
  lookup_eq_some_iff map.ordered

theorem find?_of_mem {map : SortedMap κ ν} (member : entry ∈ map.entries) :
    map.find? entry.1 = some entry.2 :=
  find?_eq_some_iff.mpr member

theorem find?_eq_none_iff {map : SortedMap κ ν} {key : κ} :
    map.find? key = none ↔ ∀ value, (key, value) ∉ map.entries := by
  constructor
  · intro absent value member
    rw [find?_eq_some_iff.mpr member] at absent
    contradiction
  · intro absent
    cases found : map.find? key with
    | none => rfl
    | some value => exact absurd (find?_eq_some_iff.mp found) (absent value)

theorem entry_unique {map : SortedMap κ ν} (leftMember : left ∈ map.entries)
    (rightMember : right ∈ map.entries) (same : left.1 = right.1) : left = right := by
  have first := find?_of_mem leftMember
  rw [same, find?_of_mem rightMember] at first
  exact Prod.ext same (Option.some.inj first).symm

/-- Two maps with the same lookups are the same map. -/
theorem ext_find? {left right : SortedMap κ ν} (same : ∀ key, left.find? key = right.find? key) :
    left = right := by
  apply ext_entries
  have agree : ∀ entry, entry ∈ left.entries ↔ entry ∈ right.entries := by
    intro entry
    obtain ⟨key, value⟩ := entry
    rw [← find?_eq_some_iff, ← find?_eq_some_iff, same]
  have distinct : ∀ map : SortedMap κ ν, map.entries.Nodup := fun map =>
    map.ordered.imp fun below same => absurd (same ▸ below) (lt_irrefl _)
  have permuted : left.entries.Perm right.entries :=
    (perm_ext_iff_of_nodup (distinct left) (distinct right)).mpr agree
  refine permuted.eq_of_pairwise ?_ left.ordered right.ordered
  intro first second _ _ below above
  exact absurd (below.trans above) (lt_irrefl _)

@[simp] theorem find?_emptyCollection (key : κ) : (∅ : SortedMap κ ν).find? key = none := rfl

theorem lookup_insertEntry_self (key : κ) (value : ν) (entries : List (κ × ν)) :
    (insertEntry key value entries).lookup key = some value := by
  induction entries with
  | nil => simp [insertEntry]
  | cons first rest ih =>
    simp only [insertEntry]
    split
    · simp
    · split
      · simp
      · rename_i notSame
        have unequal : (key == first.1) = false := by simpa using notSame
        simp [List.lookup, unequal, ih]

theorem lookup_insertEntry_ne (different : other ≠ key) (value : ν) (entries : List (κ × ν)) :
    (insertEntry key value entries).lookup other = entries.lookup other := by
  have unequal : (other == key) = false := by simpa using different
  induction entries with
  | nil => simp [insertEntry, List.lookup, unequal]
  | cons first rest ih =>
    simp only [insertEntry]
    split
    · simp only [List.lookup, unequal]
    · split
      · rename_i same
        obtain ⟨first, found⟩ := first
        simp only at same
        subst same
        simp only [List.lookup, unequal]
      · simp only [List.lookup, ih]

theorem find?_insert (map : SortedMap κ ν) (key other : κ) (value : ν) :
    (map.insert key value).find? other = if other = key then some value else map.find? other := by
  split
  · rename_i same
    subst same
    exact lookup_insertEntry_self _ _ _
  · rename_i different
    exact lookup_insertEntry_ne different _ _

@[simp] theorem find?_insert_self (map : SortedMap κ ν) (key : κ) (value : ν) :
    (map.insert key value).find? key = some value := by
  simp [find?_insert]

@[simp] theorem find?_filter (map : SortedMap κ ν) (keep : κ → ν → Bool) (key : κ) :
    (map.filter keep).find? key = (map.find? key).filter (keep key) := by
  cases found : (map.filter keep).find? key with
  | some value =>
    have member := mem_filter.mp (find?_eq_some_iff.mp found)
    rw [find?_eq_some_iff.mpr member.1]
    simp only [Option.filter, member.2, if_true]
  | none =>
    cases held : map.find? key with
    | none => rfl
    | some value =>
      have absent := find?_eq_none_iff.mp found value
      have dropped : keep key value ≠ true := fun kept =>
        absent (mem_filter.mpr ⟨find?_eq_some_iff.mp held, kept⟩)
      simp [Option.filter, dropped]

theorem find?_erase (map : SortedMap κ ν) (key other : κ) :
    (map.erase key).find? other = if other = key then none else map.find? other := by
  simp only [erase, find?_filter]
  by_cases same : other = key <;> cases map.find? other <;> simp [Option.filter, same]

@[simp] theorem find?_mapValues (map : SortedMap κ ν) (change : κ → ν → μ) (key : κ) :
    (map.mapValues change).find? key = (map.find? key).map (change key) := by
  cases found : map.find? key with
  | some value =>
    exact find?_eq_some_iff.mpr
      (mem_map.mpr ⟨(key, value), find?_eq_some_iff.mp found, rfl⟩)
  | none =>
    refine find?_eq_none_iff.mpr fun value member => ?_
    obtain ⟨entry, held, same⟩ := mem_map.mp member
    obtain ⟨rfl, -⟩ := Prod.mk.inj same
    exact find?_eq_none_iff.mp found entry.2 held

theorem mem_keys {map : SortedMap κ ν} : key ∈ map.keys ↔ (map.find? key).isSome := by
  constructor
  · intro member
    obtain ⟨entry, held, rfl⟩ := mem_map.mp member
    rw [find?_of_mem held]
    rfl
  · intro present
    obtain ⟨value, found⟩ := Option.isSome_iff_exists.mp present
    exact mem_map.mpr ⟨(key, value), find?_eq_some_iff.mp found, rfl⟩

theorem mem_entries_insert {map : SortedMap κ ν} : entry ∈ (map.insert key value).entries ↔
      entry = (key, value) ∨ (entry.1 ≠ key ∧ entry ∈ map.entries) := by
  obtain ⟨other, found⟩ := entry
  rw [← find?_eq_some_iff, ← find?_eq_some_iff, find?_insert]
  by_cases same : other = key
  · simp only [same, if_true, Option.some.injEq, Prod.mk.injEq, true_and, ne_eq, not_true_eq_false,
      false_and, or_false]
    exact eq_comm
  · simp [same]

@[simp] theorem mem_entries_filter {map : SortedMap κ ν} :
    entry ∈ (map.filter keep).entries ↔ entry ∈ map.entries ∧ keep entry.1 entry.2 = true :=
  mem_filter

@[simp] theorem mem_entries_erase {map : SortedMap κ ν} :
    entry ∈ (map.erase key).entries ↔ entry ∈ map.entries ∧ entry.1 ≠ key := by
  simp [erase]

/-- On sorted keys a downward closed test admits a prefix. -/
theorem takeWhile_eq_filter (admits : κ → Bool) {entries : List (κ × ν)}
    (ordered : entries.Pairwise fun left right => left.1 < right.1)
    (closed : ∀ {low high}, low < high → admits high = true → admits low = true) :
    (entries.takeWhile fun entry => admits entry.1) = entries.filter fun entry => admits entry.1 := by
  induction entries with
  | nil => rfl
  | cons first rest ih =>
    obtain ⟨above, tail⟩ := pairwise_cons.mp ordered
    cases admitted : admits first.1 with
    | true => simp [admitted, ih tail]
    | false =>
      have refused : ∀ entry ∈ rest, admits entry.1 = false := by
        intro entry member
        by_contra passed
        have held : admits first.1 = true := closed (above entry member) (by simpa using passed)
        simp [admitted] at held
      simpa [admitted] using refused

theorem getLast?_eq_some_iff {entries : List (κ × ν)}
    (ordered : entries.Pairwise fun left right => left.1 < right.1) :
    entries.getLast? = some found ↔
      found ∈ entries ∧ ∀ entry ∈ entries, entry.1 ≤ found.1 := by
  constructor
  · intro last
    obtain ⟨front, rfl⟩ := List.getLast?_eq_some_iff.mp last
    refine ⟨by simp, fun entry member => ?_⟩
    obtain ⟨-, -, below⟩ := pairwise_append.mp ordered
    rcases mem_append.mp member with member | member
    · exact (below entry member found mem_cons_self).le
    · rw [mem_singleton.mp member]
  · rintro ⟨member, largest⟩
    obtain ⟨front, back, rfl⟩ := append_of_mem member
    obtain ⟨-, ordered, -⟩ := pairwise_append.mp ordered
    have none_above : back = [] := by
      cases back with
      | nil => rfl
      | cons next back =>
        have below := (pairwise_cons.mp ordered).1 next mem_cons_self
        exact absurd below (not_lt.mpr (largest next (by simp)))
    simp [none_above]

theorem before?_eq_some_iff {map : SortedMap κ ν} : map.before? key = some found ↔
      (found ∈ map.entries ∧ found.1 < key) ∧
        ∀ entry ∈ map.entries, entry.1 < key → entry.1 ≤ found.1 := by
  have closed : ∀ {low high : κ}, low < high → decide (high < key) = true →
      decide (low < key) = true :=
    fun below admitted => decide_eq_true (below.trans (of_decide_eq_true admitted))
  rw [before?, takeWhile_eq_filter (fun other => decide (other < key)) map.ordered closed,
    getLast?_eq_some_iff (map.ordered.filter _)]
  simp

theorem floor?_eq_some_iff {map : SortedMap κ ν} : map.floor? key = some found ↔
      (found ∈ map.entries ∧ found.1 ≤ key) ∧
        ∀ entry ∈ map.entries, entry.1 ≤ key → entry.1 ≤ found.1 := by
  have closed : ∀ {low high : κ}, low < high → decide (high ≤ key) = true →
      decide (low ≤ key) = true :=
    fun below admitted => decide_eq_true (below.le.trans (of_decide_eq_true admitted))
  rw [floor?, takeWhile_eq_filter (fun other => decide (other ≤ key)) map.ordered closed,
    getLast?_eq_some_iff (map.ordered.filter _)]
  simp

theorem before?_eq_none_iff {map : SortedMap κ ν} :
    map.before? key = none ↔ ∀ entry ∈ map.entries, key ≤ entry.1 := by
  have closed : ∀ {low high : κ}, low < high → decide (high < key) = true →
      decide (low < key) = true :=
    fun below admitted => decide_eq_true (below.trans (of_decide_eq_true admitted))
  rw [before?, takeWhile_eq_filter (fun other => decide (other < key)) map.ordered closed]
  simp

theorem floor?_eq_none_iff {map : SortedMap κ ν} :
    map.floor? key = none ↔ ∀ entry ∈ map.entries, key < entry.1 := by
  have closed : ∀ {low high : κ}, low < high → decide (high ≤ key) = true →
      decide (low ≤ key) = true :=
    fun below admitted => decide_eq_true (below.le.trans (of_decide_eq_true admitted))
  rw [floor?, takeWhile_eq_filter (fun other => decide (other ≤ key)) map.ordered closed]
  simp

/-- The walk from a lower bound visits exactly the entries at or above it. -/
theorem fromKey_eq_filter (map : SortedMap κ ν) (start : κ) :
    map.fromKey start = map.entries.filter fun entry => start ≤ entry.1 := by
  have ordered := map.ordered
  simp only [fromKey]
  generalize map.entries = entries at ordered
  induction entries with
  | nil => rfl
  | cons first rest ih =>
    obtain ⟨above, tail⟩ := pairwise_cons.mp ordered
    by_cases below : first.1 < start
    · simp [below, ih tail, not_le.mpr below]
    · have reached : start ≤ first.1 := not_lt.mp below
      have kept : rest.filter (fun entry => start ≤ entry.1) = rest :=
        filter_eq_self.mpr fun entry member => by
          simpa using reached.trans (above entry member).le
      simp [below, reached, kept]

theorem insertEntry_above {entries : List (κ × ν)} (above : ∀ entry ∈ entries, entry.1 < key) :
    insertEntry key value entries = entries ++ [(key, value)] := by
  induction entries with
  | nil => rfl
  | cons first rest ih =>
    have below := above first mem_cons_self
    rw [insertEntry, if_neg (not_lt.mpr below.le), if_neg (ne_of_gt below),
      ih fun entry member => above entry (mem_cons_of_mem _ member), cons_append]

/-- Inserting entries above every present key appends them. -/
theorem insert_above {map : SortedMap κ ν} {key : κ} (value : ν)
    (above : ∀ entry ∈ map.entries, entry.1 < key) :
    (map.insert key value).entries = map.entries ++ [(key, value)] :=
  insertEntry_above above

theorem foldl_insert_entries {entries : List (κ × ν)} {map : SortedMap κ ν}
    (ordered : (map.entries ++ entries).Pairwise fun left right => left.1 < right.1) :
    (entries.foldl (fun map entry => map.insert entry.1 entry.2) map).entries =
      map.entries ++ entries := by
  induction entries generalizing map with
  | nil => simp
  | cons first rest ih =>
    have above : ∀ entry ∈ map.entries, entry.1 < first.1 := fun entry member =>
      (pairwise_append.mp ordered).2.2 entry member first mem_cons_self
    have appended := insert_above first.2 above
    rw [foldl_cons, ih (by simpa [appended] using ordered), appended]
    simp

/-- The entries of one map written over another. -/
def overlay (map newer : SortedMap κ ν) : SortedMap κ ν :=
  newer.entries.foldl (fun map entry => map.insert entry.1 entry.2) map

theorem find?_overlay (map newer : SortedMap κ ν) (key : κ) :
    (map.overlay newer).find? key = (newer.find? key).or (map.find? key) := by
  have walk : ∀ (entries : List (κ × ν)) (map : SortedMap κ ν),
      (entries.Pairwise fun left right => left.1 < right.1) →
      (entries.foldl (fun map entry => map.insert entry.1 entry.2) map).find? key =
        (entries.lookup key).or (map.find? key) := by
    intro entries
    induction entries with
    | nil => exact fun map _ => rfl
    | cons first rest ih =>
      intro map ordered
      obtain ⟨above, tail⟩ := pairwise_cons.mp ordered
      rw [foldl_cons, ih _ tail, find?_insert]
      by_cases same : key = first.1
      · subst same
        have absent : rest.lookup first.1 = none := by
          cases found : rest.lookup first.1 with
          | none => rfl
          | some value =>
            exact absurd (above _ ((lookup_eq_some_iff tail).mp found)) (lt_irrefl _)
        rw [absent, if_pos rfl, lookup_cons_self]
        rfl
      · have unequal : (key == first.1) = false := by simpa using same
        rw [if_neg same, List.lookup, unequal]
  exact walk newer.entries map newer.ordered

theorem ofList_entries (map : SortedMap κ ν) : ofList map.entries = map := by
  apply ext_entries
  rw [ofList, foldl_insert_entries (by simpa [empty] using map.ordered)]
  rfl

theorem ofList_of_ordered {entries : List (κ × ν)}
    (ordered : entries.Pairwise fun left right => left.1 < right.1) :
    (ofList entries).entries = entries := congrArg SortedMap.entries (ofList_entries ⟨entries, ordered⟩)

theorem mem_keys_ofList {entries : List (κ × ν)} :
    key ∈ (ofList entries).keys ↔ key ∈ entries.map Prod.fst := by
  have walk (map : SortedMap κ ν) :
      key ∈ (entries.foldl (fun map entry => map.insert entry.1 entry.2) map).keys ↔
        key ∈ entries.map Prod.fst ∨ key ∈ map.keys := by
    induction entries generalizing map with
    | nil => simp only [foldl_nil, map_nil, not_mem_nil, false_or]
    | cons first rest ih =>
      rw [foldl_cons, ih, mem_keys, find?_insert, map_cons, mem_cons, mem_keys]
      by_cases same : key = first.1
      · simp [same]
      · simp [same]
  exact (walk empty).trans (or_iff_left not_mem_nil)

def total (weight : ν → Nat) (map : SortedMap κ ν) : Nat := (map.values.map weight).sum

theorem total_le_total {map : SortedMap κ ν}
    (below : ∀ entry ∈ map.entries, first entry.2 ≤ second entry.2) :
    total first map ≤ total second map := by
  unfold total values
  rw [map_map, map_map]
  generalize map.entries = entries at below
  induction entries with
  | nil => exact le_rfl
  | cons entry rest ih =>
    have tail := ih fun other member => below other (mem_cons_of_mem _ member)
    simp only [map_cons, sum_cons]
    exact Nat.add_le_add (below entry mem_cons_self) tail

theorem total_insert (weight : ν → Nat) {map : SortedMap κ ν} (value : ν)
    (fresh : map.find? key = none) :
    total weight (map.insert key value) = total weight map + weight value := by
  have absent : ∀ entry ∈ map.entries, entry.1 ≠ key := by
    intro entry member same
    exact find?_eq_none_iff.mp fresh entry.2 (same ▸ member)
  have walk : ∀ entries : List (κ × ν), (∀ entry ∈ entries, entry.1 ≠ key) →
      ((insertEntry key value entries).map fun entry => weight entry.2).sum =
        (entries.map fun entry => weight entry.2).sum + weight value := by
    intro entries others
    induction entries with
    | nil => simp [insertEntry]
    | cons first rest ih =>
      rw [insertEntry]
      split
      · simp only [map_cons, sum_cons]
        omega
      · rw [if_neg (others first mem_cons_self).symm]
        simp only [map_cons, sum_cons,
          ih fun entry member => others entry (mem_cons_of_mem _ member)]
        omega
  simpa [total, values, insert, map_map, Function.comp_def] using walk map.entries absent

theorem insert_erase {map : SortedMap κ ν}
    (found : map.find? key = some value) : (map.erase key).insert key value = map := by
  refine ext_find? fun other => ?_
  rw [find?_insert, find?_erase]
  split
  · rename_i same
    rw [same, found]
  · rfl

theorem total_erase (weight : ν → Nat) {map : SortedMap κ ν} (found : map.find? key = some value) :
    total weight map = total weight (map.erase key) + weight value := by
  have gone : (map.erase key).find? key = none := by
    rw [find?_erase, if_pos rfl]
  rw [← total_insert weight value gone, insert_erase found]

theorem erase_of_absent {map : SortedMap κ ν} (absent : map.find? key = none) :
    map.erase key = map := by
  refine ext_find? fun other => ?_
  rw [find?_erase]
  split
  · rename_i same
    rw [same, absent]
  · rfl

/-- Changing one value moves the sum by the difference of its weights. -/
theorem total_update (weight : ν → Nat) {map : SortedMap κ ν}
    (updated : ν) (found : map.find? key = some value) :
    total weight (map.insert key updated) + weight value = total weight map + weight updated := by
  have gone : (map.erase key).find? key = none := by
    rw [find?_erase, if_pos rfl]
  have same : (map.erase key).insert key updated = map.insert key updated := by
    refine ext_find? fun other => ?_
    rw [find?_insert, find?_insert, find?_erase]
    split <;> rfl
  rw [← same, total_insert weight updated gone, total_erase weight found]
  omega

end SortedMap
end SwStack.Lib
