import SwStack.Lib.Iteration

/-! Rows cut into segments are read as the rows they were cut from, wherever the cuts fall: by
position, from the lower bound of a key, and row by row. A scan stops at the first row it does not
admit, and at the first it cannot emit. -/
namespace SwStack.Lib

open List

variable {α : Type u} {β : Type v}

theorem flatten_segmentRows (size : Nat) (current rows : List α) :
    (segmentRows size current rows).flatten = current ++ rows := by
  induction rows generalizing current with
  | nil =>
    rw [segmentRows]
    split
    · rename_i empty
      rw [List.isEmpty_iff.mp empty]
      rfl
    · rw [flatten_singleton, append_nil]
  | cons row rows ih =>
    rw [segmentRows]
    split
    · rw [flatten_cons, ih, nil_append, append_assoc]
      rfl
    · rw [ih, append_assoc]
      rfl

theorem ne_nil_of_mem_segmentRows {current rows segment : List α}
    (member : segment ∈ segmentRows size current rows) : segment ≠ [] := by
  induction rows generalizing current with
  | nil =>
    rw [segmentRows] at member
    split at member
    · cases member
    · rename_i filled
      rw [mem_singleton.mp member]
      exact fun empty => filled (List.isEmpty_iff.mpr empty)
  | cons row rows ih =>
    rw [segmentRows] at member
    split at member
    · rcases mem_cons.mp member with rfl | member
      · exact append_ne_nil_of_right_ne_nil _ (cons_ne_nil _ _)
      · exact ih member
    · exact ih member

/-- A row is found by the segment and the place that its position gives. -/
theorem getElem?_segmentRows {current rows : List α} (room : current.length < size)
    (position : Nat) : ((segmentRows size current rows)[position / size]?.bind fun segment =>
      segment[position % size]?) = (current ++ rows)[position]? := by
  have positive : 0 < size := Nat.zero_lt_of_lt room
  have last (segment : List α) (filled : segment.length ≤ size) (position : Nat) :
      (([segment] : List (List α))[position / size]?.bind fun segment =>
        segment[position % size]?) = segment[position]? := by
    by_cases first : position < size
    · rw [Nat.div_eq_of_lt first, Nat.mod_eq_of_lt first]
      rfl
    · have later : 1 ≤ position / size := (Nat.one_le_div_iff positive).mpr (not_lt.mp first)
      rw [getElem?_eq_none later, getElem?_eq_none (filled.trans (not_lt.mp first))]
      rfl
  induction rows generalizing current position with
  | nil =>
    rw [segmentRows, append_nil]
    split
    · rename_i empty
      rw [List.isEmpty_iff.mp empty]
      rfl
    · exact last current room.le position
  | cons row rows ih =>
    rw [segmentRows, append_cons current row rows]
    split
    · rename_i closed
      have length : (current ++ [row]).length = size := by
        rw [length_append, length_singleton]
        omega
      by_cases first : position < size
      · rw [getElem?_append_left (by omega), Nat.div_eq_of_lt first,
          Nat.mod_eq_of_lt first]
        rfl
      · have passed := not_lt.mp first
        rw [getElem?_append_right (by omega), length,
          Nat.div_eq_sub_div positive passed, Nat.mod_eq_sub_mod passed]
        have opened : ([] : List α).length < size := positive
        exact ih opened (position - size)
    · rename_i short
      refine ih ?_ position
      rw [length_append, length_singleton]
      omega

/-- What holds of a row holds of all rows before it. -/
def DownClosed (holds : α → Bool) (rows : List α) : Prop :=
  rows.Pairwise fun left right => holds right = true → holds left = true

theorem DownClosed.refused
    (closed : DownClosed holds (first :: rows)) (refused : holds first = false) :
    ∀ row ∈ rows, holds row = false := by
  intro row member
  by_contra held
  have first_held := (pairwise_cons.mp closed).1 row member (Bool.not_eq_false _ ▸ held)
  cases refused.symm.trans first_held

theorem takeWhile_of_downClosed
    (closed : DownClosed holds rows) : rows.takeWhile holds = rows.filter holds := by
  induction rows with
  | nil => rfl
  | cons first rows ih =>
    cases held : holds first with
    | true =>
      rw [takeWhile_cons_of_pos held, filter_cons_of_pos held,
        ih (pairwise_cons.mp closed).2]
    | false =>
      have refused := closed.refused held
      rw [takeWhile_cons_of_neg (by simp [held]), filter_cons_of_neg (by simp [held]),
        filter_eq_nil_iff.mpr fun row member => by simp [refused row member]]

theorem dropWhile_of_downClosed
    (closed : DownClosed holds rows) : rows.dropWhile holds = rows.filter (!holds ·) := by
  induction rows with
  | nil => rfl
  | cons first rows ih =>
    cases held : holds first with
    | true =>
      rw [dropWhile_cons_of_pos held, filter_cons_of_neg (by simp [held]),
        ih (pairwise_cons.mp closed).2]
    | false =>
      have refused := closed.refused held
      rw [dropWhile_cons_of_neg (by simp [held]), filter_cons_of_pos (by simp [held]),
        filter_eq_self.mpr fun row member => by simp [refused row member]]

theorem range_of_downClosed
    (belowClosed : DownClosed below rows) (admitsClosed : DownClosed admits rows) :
    (rows.dropWhile below).takeWhile admits = rows.filter fun row => !below row && admits row := by
  rw [dropWhile_of_downClosed belowClosed, takeWhile_of_downClosed (admitsClosed.filter _),
    filter_filter]
  exact filter_congr fun row _ => Bool.and_comm _ _

theorem dropWhile_of_last (closed : DownClosed below rows)
    (ends : rows.getLast? = some last) : rows.dropWhile below = [] ↔ below last = true := by
  rw [dropWhile_eq_nil_iff]
  obtain ⟨front, rfl⟩ := List.getLast?_eq_some_iff.mp ends
  constructor
  · exact fun all => all last (mem_append_right _ (mem_singleton_self last))
  · intro holds row member
    rcases mem_append.mp member with member | member
    · exact (pairwise_append.mp closed).2.2 row member last (mem_singleton_self last) holds
    · exact mem_singleton.mp member ▸ holds

/-- The bound by the last rows, and then inside one segment, is the bound among all rows. -/
theorem flatten_locateStart (filled : ∀ segment ∈ segments, segment ≠ [])
    (closed : DownClosed below segments.flatten) :
    (locateStart below segments).flatten = segments.flatten.dropWhile below := by
  induction segments with
  | nil => rfl
  | cons segment segments ih =>
    rw [flatten_cons, DownClosed, pairwise_append] at closed
    obtain ⟨last, ends⟩ := Option.isSome_iff_exists.mp
      (getLast?_isSome.mpr (filled segment mem_cons_self))
    have bound := dropWhile_of_last closed.1 ends
    rw [flatten_cons, dropWhile_append]
    by_cases passed : below last = true
    · have skipped : locateStart below (segment :: segments) = locateStart below segments := by
        rw [locateStart, dropWhile_cons_of_pos (by rw [ends]; exact passed)]
        rfl
      rw [skipped, bound.mpr passed, ih (fun other member => filled other
        (mem_cons_of_mem _ member)) closed.2.1]
      rfl
    · have found : locateStart below (segment :: segments) =
          segment.dropWhile below :: segments := by
        rw [locateStart, dropWhile_cons_of_neg (by rw [ends]; exact passed)]
      have remains : segment.dropWhile below ≠ [] := mt bound.mp passed
      rw [found, if_neg (mt List.isEmpty_iff.mp remains)]
      rfl

theorem nextRow_of_flatten (read : segments.flatten = row :: rows) :
    ∃ rest, nextRow segments = some (row, rest) ∧ rest.flatten = rows := by
  induction segments with
  | nil => cases read
  | cons segment segments ih =>
    cases segment with
    | nil => exact ih read
    | cons first segment =>
      obtain ⟨rfl, rfl⟩ := List.cons.inj read
      exact ⟨_, rfl, rfl⟩

theorem nextRow_of_flatten_nil (read : segments.flatten = []) : nextRow segments = none := by
  induction segments with
  | nil => rfl
  | cons segment segments ih =>
    cases segment with
    | nil => exact ih read
    | cons first segment => cases read

/-- One call of a scan. -/
def scanNext (admits : α → Bool) (emit : α → Option β) (segments : List (List α)) :
    Option (β × List (List α)) :=
  match nextRow segments with
  | none => none
  | some (row, rest) => if admits row then (emit row).map fun value => (value, rest) else none

/-- What is emitted before the first row that cannot be. -/
def emitted (emit : α → Option β) : List α → List β
  | [] => []
  | row :: rows =>
    match emit row with
    | none => []
    | some value => value :: emitted emit rows

theorem drains_scanNext (admits : α → Bool) (emit : α → Option β) (segments : List (List α)) :
    Drains (scanNext admits emit) segments (emitted emit (segments.flatten.takeWhile admits)) := by
  generalize read : segments.flatten = rows
  induction rows generalizing segments with
  | nil =>
    refine .done ?_
    rw [scanNext, nextRow_of_flatten_nil read]
  | cons row rows ih =>
    obtain ⟨rest, pulled, remaining⟩ := nextRow_of_flatten read
    by_cases admitted : admits row = true
    · rw [takeWhile_cons_of_pos admitted, emitted]
      cases found : emit row with
      | none =>
        refine .done ?_
        simp only [scanNext, pulled, admitted, if_true, found, Option.map_none]
      | some value =>
        refine .row ?_ (ih rest remaining)
        simp only [scanNext, pulled, admitted, if_true, found, Option.map_some]
    · rw [takeWhile_cons_of_neg admitted]
      refine .done ?_
      simp only [scanNext, pulled, admitted, Bool.false_eq_true, if_false]

theorem Drains.unique {σ : Type w} {next : σ → Option (α × σ)} {state : σ} {rows other : List α}
    (drained : Drains next state rows) (again : Drains next state other) : rows = other := by
  induction drained generalizing other with
  | done ended =>
    cases again with
    | done => rfl
    | row pulled => cases ended.symm.trans pulled
  | row pulled _ ih =>
    cases again with
    | done ended => cases ended.symm.trans pulled
    | row pulledAgain remaining =>
      cases pulled.symm.trans pulledAgain
      rw [ih remaining]

theorem emitted_filterMap {γ : Type w} {resolve : α → Option γ} {emit : γ → Option β}
    {rows : List α} (all : ∀ row ∈ rows, (resolve row).isSome) :
    emitted (fun row => (resolve row).bind emit) rows = emitted emit (rows.filterMap resolve) := by
  induction rows with
  | nil => rfl
  | cons row rows ih =>
    obtain ⟨found, resolved⟩ := Option.isSome_iff_exists.mp (all row mem_cons_self)
    have rest := ih fun other member => all other (mem_cons_of_mem _ member)
    rw [filterMap_cons_some resolved, emitted, emitted, resolved, ← rest]
    rfl

theorem Drains.lift {σ : Type w} {τ : Type x} {next : σ → Option (α × σ)}
    {outer : τ → Option (α × τ)} {wrap : σ → τ}
    (calls : ∀ state, outer (wrap state) = (next state).map fun result => (result.1, wrap result.2))
    {state : σ} {rows : List α} (drained : Drains next state rows) :
    Drains outer (wrap state) rows := by
  induction drained with
  | done ended => exact .done (by rw [calls, ended, Option.map_none])
  | row pulled _ ih => exact .row (by rw [calls, pulled, Option.map_some]) ih

theorem forall₂_emitted {emit : α → Option β} (all : ∀ row ∈ rows, (emit row).isSome) :
    List.Forall₂ (fun row value => emit row = some value) rows (emitted emit rows) := by
  induction rows with
  | nil => exact .nil
  | cons row rows ih =>
    obtain ⟨value, found⟩ := Option.isSome_iff_exists.mp (all row mem_cons_self)
    rw [emitted, found]
    exact .cons found (ih fun other member => all other (mem_cons_of_mem _ member))

theorem isSome_of_forall₂ {emit : α → Option β}
    (related : List.Forall₂ (fun row value => emit row = some value) rows values) :
    ∀ row ∈ rows, (emit row).isSome := by
  induction related with
  | nil => exact fun row member => absurd member not_mem_nil
  | cons found _ ih =>
    intro row member
    rcases mem_cons.mp member with rfl | member
    · exact Option.isSome_iff_exists.mpr ⟨_, found⟩
    · exact ih row member

theorem length_emitted {emit : α → Option β}
    (all : ∀ row ∈ rows, (emit row).isSome) : (emitted emit rows).length = rows.length :=
  (forall₂_emitted all).length_eq.symm

/-- What a scan should yield: the expected rows, each once and in order. -/
def Listing (order : α → α → Prop) (expected : α → Prop) (emit : α → Option β) (values : List β) :
    Prop :=
  ∃ rows : List α, rows.Pairwise order ∧ (∀ row, row ∈ rows ↔ expected row) ∧
    List.Forall₂ (fun row value => emit row = some value) rows values

/-- Rows that are scanned in order are all listed when all can be emitted and none is met twice. -/
theorem listing_emitted_iff {order weak : α → α → Prop} (irrefl : ∀ row, ¬order row row)
    (sorted : rows.Pairwise weak) (strict : ∀ left ∈ rows, ∀ right ∈ rows, weak left right →
      left ≠ right → order left right)
    (members : ∀ row, row ∈ rows ↔ expected row) :
    Listing order expected emit (emitted emit rows) ↔
      rows.Nodup ∧ ∀ row ∈ rows, (emit row).isSome := by
  constructor
  · rintro ⟨listed, ordered, same, values⟩
    have all : ∀ row ∈ rows, (emit row).isSome := by
      intro row member
      exact isSome_of_forall₂ values row ((same row).mpr ((members row).mp member))
    have distinct : listed.Nodup := by
      refine ordered.imp ?_
      rintro left right before rfl
      exact irrefl left before
    have sub : listed.Subperm rows :=
      subperm_of_subset distinct fun row member => (members row).mpr ((same row).mp member)
    have length : rows.length ≤ listed.length := by
      rw [← length_emitted all, values.length_eq]
    exact ⟨(sub.perm_of_length_le length).nodup_iff.mp distinct, all⟩
  · rintro ⟨distinct, all⟩
    refine ⟨rows, ?_, members, forall₂_emitted all⟩
    refine List.Pairwise.imp_of_mem ?_ (sorted.and distinct)
    intro left right leftMember rightMember before
    exact strict left leftMember right rightMember before.1 before.2

end SwStack.Lib
