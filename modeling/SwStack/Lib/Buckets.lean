import SwStack.Lib.MapWeight

/-! Maps of maps in which no inner map is left empty: what changing one bucket does to the
lookups and to the number of rows. -/
namespace SwStack.Lib

universe u v w

abbrev Buckets (ι : Type u) (κ : Type v) (ν : Type w) [LinearOrder ι] [LinearOrder κ] :=
  SortedMap ι (SortedMap κ ν)

namespace Buckets

variable {ι : Type u} {κ : Type v} {ν : Type w} [LinearOrder ι] [LinearOrder κ]

/-- The bucket of a name, or the empty one. -/
def bucket (buckets : Buckets ι κ ν) (name : ι) : SortedMap κ ν := (buckets.find? name).getD ∅

def rows (buckets : Buckets ι κ ν) : Nat := buckets.weight SortedMap.size

def NoneEmpty (buckets : Buckets ι κ ν) : Prop :=
  ∀ name inner, buckets.find? name = some inner → inner.isEmpty = false

/-- Puts a changed bucket back, or takes it out when nothing is left in it. -/
def store (buckets : Buckets ι κ ν) (name : ι) (inner : SortedMap κ ν) : Buckets ι κ ν :=
  if inner.isEmpty then buckets.erase name else buckets.insert name inner

theorem eq_empty_of_isEmpty {inner : SortedMap κ ν} (empty : inner.isEmpty = true) : inner = ∅ := by
  obtain ⟨entries, ordered⟩ := inner
  cases entries with
  | nil => rfl
  | cons _ _ => cases empty

theorem size_eq_zero_of_isEmpty {inner : SortedMap κ ν} (empty : inner.isEmpty = true) :
    inner.size = 0 := by
  rw [eq_empty_of_isEmpty empty]
  rfl

theorem bucket_store (buckets : Buckets ι κ ν) (name other : ι) (inner : SortedMap κ ν) :
    (buckets.store name inner).bucket other = if other = name then inner else buckets.bucket other := by
  unfold store bucket
  split
  · rename_i empty
    rw [SortedMap.find?_erase]
    split
    · exact (eq_empty_of_isEmpty empty).symm
    · rfl
  · rw [SortedMap.find?_insert]
    split
    · rfl
    · rfl

theorem store_bucket {buckets : Buckets ι κ ν} (full : buckets.NoneEmpty) (name : ι) :
    buckets.store name (buckets.bucket name) = buckets := by
  unfold store bucket
  cases found : buckets.find? name with
  | none => exact SortedMap.erase_of_absent found
  | some inner =>
    rw [Option.getD_some, if_neg (by rw [full name inner found]; exact Bool.false_ne_true)]
    refine SortedMap.ext_find? fun other => ?_
    rw [SortedMap.find?_insert]
    split
    · rename_i same
      rw [same, found]
    · rfl

theorem NoneEmpty.empty : NoneEmpty (∅ : Buckets ι κ ν) := by
  intro name inner found
  cases found

theorem NoneEmpty.store {buckets : Buckets ι κ ν} (full : buckets.NoneEmpty) (name : ι)
    (inner : SortedMap κ ν) : (buckets.store name inner).NoneEmpty := by
  intro other found present
  unfold Buckets.store at present
  split at present
  · rw [SortedMap.find?_erase] at present
    split at present
    · cases present
    · exact full other found present
  · rename_i proper
    rw [SortedMap.find?_insert] at present
    split at present
    · cases present
      exact Bool.eq_false_iff.mpr proper
    · exact full other found present

theorem rows_eq (buckets : Buckets ι κ ν) (name : ι) :
    buckets.rows = (buckets.bucket name).size + rows (buckets.erase name) := by
  unfold rows bucket
  cases found : buckets.find? name with
  | none =>
    rw [SortedMap.erase_of_absent found]
    exact (Nat.zero_add _).symm
  | some inner => exact SortedMap.weight_erase _ found

theorem rows_store (buckets : Buckets ι κ ν) (name : ι) (inner : SortedMap κ ν) :
    rows (buckets.store name inner) = inner.size + rows (buckets.erase name) := by
  unfold store
  split
  · rename_i empty
    rw [size_eq_zero_of_isEmpty empty, Nat.zero_add]
  · exact SortedMap.weight_insert _ _ _ _

/-- Changes the buckets of the names listed, each by its own list. -/
def change {α : Type*} (edit : α → SortedMap κ ν → SortedMap κ ν) (edits : List (ι × α))
    (buckets : Buckets ι κ ν) : Buckets ι κ ν :=
  edits.foldl (fun buckets entry => store buckets entry.1 (edit entry.2 (buckets.bucket entry.1)))
    buckets

variable {α : Type*} {edit : α → SortedMap κ ν → SortedMap κ ν}

theorem NoneEmpty.change {buckets : Buckets ι κ ν} (full : buckets.NoneEmpty)
    (edits : List (ι × α)) : (Buckets.change edit edits buckets).NoneEmpty := by
  unfold Buckets.change
  induction edits generalizing buckets with
  | nil => exact full
  | cons entry rest ih => exact ih (full.store _ _)

theorem bucket_change_of_notMem
    (absent : ∀ entry ∈ edits, entry.1 ≠ name) (buckets : Buckets ι κ ν) :
    (change edit edits buckets).bucket name = buckets.bucket name := by
  unfold change
  induction edits generalizing buckets with
  | nil => rfl
  | cons entry rest ih =>
    rw [List.foldl_cons, ih (fun other member => absent other (List.mem_cons_of_mem _ member)),
      bucket_store, if_neg (absent entry List.mem_cons_self).symm]

theorem bucket_change (edits : SortedMap ι α) (buckets : Buckets ι κ ν) (name : ι) :
    (change edit edits.entries buckets).bucket name =
      match edits.find? name with
      | some listed => edit listed (buckets.bucket name)
      | none => buckets.bucket name := by
  cases found : edits.find? name with
  | none =>
    refine bucket_change_of_notMem (fun entry member same => ?_) buckets
    exact SortedMap.find?_eq_none_iff.mp found entry.2 (same ▸ member)
  | some listed =>
    have walk : ∀ (entries : List (ι × α)) (buckets : Buckets ι κ ν),
        entries.Pairwise (fun left right => left.1 < right.1) → (name, listed) ∈ entries →
        (change edit entries buckets).bucket name = edit listed (buckets.bucket name) := by
      intro entries
      induction entries with
      | nil => intro _ _ member; cases member
      | cons entry rest ih =>
        intro buckets ordered member
        obtain ⟨later, tail⟩ := List.pairwise_cons.mp ordered
        rcases List.mem_cons.mp member with rfl | behind
        · refine (bucket_change_of_notMem (fun other member =>
            (later other member).ne') _).trans ?_
          rw [bucket_store, if_pos rfl]
        · refine (ih (buckets.store entry.1 _) tail behind).trans ?_
          rw [bucket_store, if_neg (later _ behind).ne']
    exact walk edits.entries buckets edits.ordered (SortedMap.find?_eq_some_iff.mp found)

end Buckets
end SwStack.Lib
