import SwStack.Lib.SortedMap

/-! Sums over the values of a map, and what inserting and erasing does to them. The number of
entries is the sum of ones. -/
namespace SwStack.Lib.SortedMap

open List

variable {κ : Type u} {ν : Type v} [LinearOrder κ]

def weight (measure : ν → Nat) (map : SortedMap κ ν) : Nat :=
  (map.entries.map fun entry => measure entry.2).sum

def size (map : SortedMap κ ν) : Nat := map.entries.length

theorem entries_nodup (map : SortedMap κ ν) : map.entries.Nodup :=
  map.ordered.imp fun before same => (same ▸ before).false

omit [LinearOrder κ] in
theorem weight_perm {measure : ν → Nat} {left right : List (κ × ν)} (same : left.Perm right) :
    (left.map fun entry => measure entry.2).sum = (right.map fun entry => measure entry.2).sum :=
  (same.map _).sum_eq

theorem entries_insert_perm (map : SortedMap κ ν) (key : κ) (value : ν) :
    (map.insert key value).entries.Perm ((key, value) :: (map.erase key).entries) := by
  have fresh : (key, value) ∉ (map.erase key).entries := by simp
  refine (perm_ext_iff_of_nodup (entries_nodup _)
    (nodup_cons.mpr ⟨fresh, entries_nodup _⟩)).mpr fun entry => ?_
  rw [mem_entries_insert, List.mem_cons, mem_entries_erase, and_comm]

theorem entries_erase_perm {map : SortedMap κ ν} (found : map.find? key = some value) :
    map.entries.Perm ((key, value) :: (map.erase key).entries) := by
  have same : map.insert key value = map := by
    refine ext_find? fun other => ?_
    rw [find?_insert]
    split
    · rename_i equal
      rw [equal, found]
    · rfl
  have perm := entries_insert_perm map key value
  rwa [same] at perm

theorem erase_insert (map : SortedMap κ ν) (key : κ) (value : ν) :
    (map.insert key value).erase key = map.erase key := by
  refine ext_find? fun other => ?_
  rw [find?_erase, find?_erase, find?_insert]
  split
  · rfl
  · rfl

variable (measure : ν → Nat)

theorem weight_insert (map : SortedMap κ ν) (key : κ) (value : ν) :
    (map.insert key value).weight measure = measure value + (map.erase key).weight measure := by
  rw [weight, weight_perm (entries_insert_perm map key value), List.map_cons, List.sum_cons, weight]

theorem weight_erase {map : SortedMap κ ν} (found : map.find? key = some value) :
    map.weight measure = measure value + (map.erase key).weight measure := by
  rw [weight, weight_perm (entries_erase_perm found), List.map_cons, List.sum_cons, weight]

theorem weight_filter (map : SortedMap κ ν) (keep : κ → ν → Bool) :
    map.weight measure = (map.filter keep).weight measure +
      ((map.entries.filter fun entry => !keep entry.1 entry.2).map
        fun entry => measure entry.2).sum := by
  unfold weight filter
  dsimp only
  generalize map.entries = entries
  induction entries with
  | nil => rfl
  | cons entry rest ih =>
    rw [List.map_cons, List.sum_cons, ih]
    cases kept : keep entry.1 entry.2 with
    | true =>
      rw [filter_cons_of_pos (by simpa using kept), filter_cons_of_neg (by simp [kept]),
        List.map_cons, List.sum_cons, Nat.add_assoc]
    | false =>
      rw [filter_cons_of_neg (by simp [kept]), filter_cons_of_pos (by simp [kept]),
        List.map_cons, List.sum_cons, Nat.add_left_comm]

theorem size_insert (map : SortedMap κ ν) (key : κ) (value : ν) :
    (map.insert key value).size = (map.erase key).size + 1 :=
  (entries_insert_perm map key value).length_eq

theorem size_erase {map : SortedMap κ ν}
    (found : map.find? key = some value) : map.size = (map.erase key).size + 1 :=
  (entries_erase_perm found).length_eq

theorem size_filter_le (map : SortedMap κ ν) (keep : κ → ν → Bool) :
    (map.filter keep).size ≤ map.size := length_filter_le _ _

end SwStack.Lib.SortedMap

/-! What a measure of a map's values adds up to, key by key, and how much it grows when values
are replaced. -/
namespace SwStack.Lib.SortedMap

variable {κ : Type u} {ν : Type v} [LinearOrder κ]

/-- The measure of a key's value, nothing for a key that has none. -/
def measureAt (measure : ν → Nat) (map : SortedMap κ ν) (key : κ) : Nat :=
  ((map.find? key).map measure).getD 0

/-- What the values of the later map measure beyond those the earlier one has. -/
def growth (measure : ν → Nat) (before after : SortedMap κ ν) : Nat :=
  (after.keys.map fun key => after.measureAt measure key - before.measureAt measure key).sum

variable {measure : ν → Nat} {map before after : SortedMap κ ν} {key : κ} {value : ν}

theorem measureAt_of_found (found : map.find? key = some value) :
    map.measureAt measure key = measure value := by
  rw [measureAt, found]
  rfl

theorem measureAt_insert (map : SortedMap κ ν) (key other : κ) (value : ν) :
    (map.insert key value).measureAt measure other =
      if other = key then measure value else map.measureAt measure other := by
  rw [measureAt, find?_insert]
  split <;> rfl

theorem measureAt_erase (map : SortedMap κ ν) (key other : κ) :
    (map.erase key).measureAt measure other =
      if other = key then 0 else map.measureAt measure other := by
  rw [measureAt, find?_erase]
  split <;> rfl

theorem total_eq_sum_keys (map : SortedMap κ ν) :
    map.total measure = (map.keys.map (map.measureAt measure)).sum := by
  unfold total values keys
  rw [List.map_map, List.map_map]
  congr 1
  refine List.map_congr_left fun entry member => ?_
  exact (measureAt_of_found (find?_of_mem member)).symm

/-- A value is replaced where there is one: the keys stay. -/
theorem keys_insert (updated : ν) (found : map.find? key = some value) :
    (map.insert key updated).keys = map.keys := by
  have walk (entries : List (κ × ν)) (present : (key, value) ∈ entries)
      (ordered : entries.Pairwise fun left right => left.1 < right.1) :
      (insertEntry key updated entries).map Prod.fst = entries.map Prod.fst := by
    induction entries with
    | nil => cases present
    | cons entry rest ih =>
      obtain ⟨above, tail⟩ := List.pairwise_cons.mp ordered
      rw [insertEntry]
      rcases List.mem_cons.mp present with here | later
      · have same : key = entry.1 := congrArg Prod.fst here
        rw [if_neg (same ▸ lt_irrefl key), if_pos same, List.map_cons, List.map_cons, same]
      · have before : entry.1 < key := above (key, value) later
        rw [if_neg before.asymm, if_neg before.ne', List.map_cons, List.map_cons, ih later tail]
  exact walk map.entries (find?_eq_some_iff.mp found) map.ordered

theorem growth_eq_zero
    (held : ∀ key, after.measureAt measure key ≤ before.measureAt measure key) :
    growth measure before after = 0 := by
  unfold growth
  rw [List.sum_eq_zero]
  intro grown member
  obtain ⟨key, -, rfl⟩ := List.mem_map.mp member
  exact Nat.sub_eq_zero_of_le (held key)

theorem total_add_growth (keys : after.keys = before.keys)
    (grows : ∀ key, before.measureAt measure key ≤ after.measureAt measure key) :
    before.total measure + growth measure before after = after.total measure := by
  rw [total_eq_sum_keys, total_eq_sum_keys, growth, ← keys]
  generalize after.keys = keys
  induction keys with
  | nil => rfl
  | cons key rest ih =>
    have grown := grows key
    rw [List.map_cons, List.map_cons, List.map_cons, List.sum_cons, List.sum_cons, List.sum_cons]
    omega

end SwStack.Lib.SortedMap
