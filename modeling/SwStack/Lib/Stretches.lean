import Mathlib

/-! Stretches of a list: what is left between the elements that cut it. Two elements lie in
one stretch when neither they nor anything between them cuts. -/
namespace SwStack.Lib

open List

variable {α : Type*}

/-- Two different members stand in one order or the other. -/
theorem pair_sublist_of_mem (first : x ∈ xs) (second : y ∈ xs)
    (different : x ≠ y) : List.Sublist [x, y] xs ∨ List.Sublist [y, x] xs := by
  obtain ⟨before, after, rfl⟩ := append_of_mem first
  rcases mem_append.mp second with early | late
  · refine .inr ?_
    exact (singleton_sublist.mpr early).append (singleton_sublist.mpr mem_cons_self)
  · refine .inl ((List.Sublist.cons_cons x (singleton_sublist.mpr ?_)).trans
      (sublist_append_right before _))
    exact (mem_cons.mp late).resolve_left (Ne.symm different)

theorem pair_sublist_cons :
    List.Sublist [x, y] (z :: xs) ↔ List.Sublist [x, y] xs ∨ (x = z ∧ y ∈ xs) := by
  rw [sublist_cons_iff]
  simp [singleton_sublist, eq_comm]

theorem pair_sublist_filterMap : List.Sublist [x, y] (xs.filterMap f) ↔
      ∃ a b, List.Sublist [a, b] xs ∧ f a = some x ∧ f b = some y := by
  constructor
  · intro sublist
    induction xs with
    | nil => cases sublist
    | cons z xs ih =>
      rw [filterMap_cons] at sublist
      cases image : f z with
      | none =>
        rw [image] at sublist
        obtain ⟨a, b, inner, first, second⟩ := ih sublist
        exact ⟨a, b, inner.cons z, first, second⟩
      | some w =>
        rw [image] at sublist
        rcases pair_sublist_cons.mp sublist with later | ⟨rfl, member⟩
        · obtain ⟨a, b, inner, first, second⟩ := ih later
          exact ⟨a, b, inner.cons z, first, second⟩
        · obtain ⟨b, here, second⟩ := mem_filterMap.mp member
          exact ⟨z, b, pair_sublist_cons.mpr (.inr ⟨rfl, here⟩), image, second⟩
  · rintro ⟨a, b, sublist, first, second⟩
    simpa [first, second] using sublist.filterMap f

theorem pair_sublist_map :
    List.Sublist [x, y] (xs.map f) ↔ ∃ a b, List.Sublist [a, b] xs ∧ f a = x ∧ f b = y := by
  rw [← filterMap_eq_map, pair_sublist_filterMap]
  simp

theorem pair_sublist_filter : List.Sublist [x, y] (xs.filter test) ↔
      List.Sublist [x, y] xs ∧ test x = true ∧ test y = true := by
  constructor
  · intro sublist
    refine ⟨sublist.trans filter_sublist, ?_, ?_⟩
    · exact (mem_filter.mp (sublist.subset mem_cons_self)).2
    · exact (mem_filter.mp (sublist.subset (mem_cons_of_mem _ mem_cons_self))).2
  · rintro ⟨sublist, first, second⟩
    simpa [first, second] using sublist.filter test

/-- The stretches of a list without a cut at its start: the first one grows. -/
theorem stretches_cons_uncut (xs : List α) (uncut : cut x = false) :
    ∃ first rest, xs.splitOnP cut = first :: rest ∧
      (x :: xs).splitOnP cut = (x :: first) :: rest := by
  obtain ⟨first, rest, split⟩ := exists_cons_of_ne_nil (splitOnP_ne_nil cut xs)
  refine ⟨first, rest, split, ?_⟩
  rw [splitOnP_cons_eq_if_modifyHead, if_neg (by simp [uncut]), split, modifyHead_cons]

/-- The first stretch reaches as far as nothing cuts. -/
theorem mem_first_stretch (split : xs.splitOnP cut = first :: rest) :
    y ∈ first ↔ ∃ between after, xs = between ++ y :: after ∧
      ∀ z ∈ between ++ [y], cut z = false := by
  induction xs generalizing first rest with
  | nil =>
    rw [splitOnP_nil] at split
    cases split
    simp
  | cons x xs ih =>
    cases uncut : cut x with
    | true =>
      rw [splitOnP_cons_eq_if_modifyHead, if_pos uncut] at split
      cases split
      refine iff_of_false not_mem_nil ?_
      rintro ⟨between, after, same, open_⟩
      have start : x ∈ between ++ [y] := by
        cases between with
        | nil =>
          cases same
          exact mem_singleton_self _
        | cons z between =>
          cases same
          exact mem_cons_self
      rw [open_ x start] at uncut
      contradiction
    | false =>
      obtain ⟨inner, others, splitInner, splitWhole⟩ := stretches_cons_uncut xs uncut
      rw [splitWhole] at split
      cases split
      rw [mem_cons, ih splitInner]
      constructor
      · rintro (rfl | ⟨between, after, rfl, open_⟩)
        · exact ⟨[], xs, rfl, by simpa using uncut⟩
        · refine ⟨x :: between, after, rfl, ?_⟩
          intro z member
          rcases mem_cons.mp member with rfl | member
          · exact uncut
          · exact open_ z member
      · rintro ⟨between, after, same, open_⟩
        cases between with
        | nil =>
          cases same
          exact .inl rfl
        | cons z between =>
          cases same
          exact .inr ⟨between, after, rfl, fun w member => open_ w (mem_cons_of_mem _ member)⟩

/-- Two elements in one stretch are two elements with nothing that cuts from one to the other. -/
theorem pair_in_stretch_iff {cut : α → Bool} :
    (∃ stretch ∈ xs.splitOnP cut, List.Sublist [x, y] stretch) ↔
      ∃ before between after, xs = before ++ x :: (between ++ y :: after) ∧
        ∀ z ∈ x :: (between ++ [y]), cut z = false := by
  induction xs with
  | nil => simp
  | cons w xs ih =>
    cases uncut : cut w with
    | true =>
      rw [splitOnP_cons_eq_if_modifyHead, if_pos uncut]
      have skipped : (∃ stretch ∈ [] :: xs.splitOnP cut, List.Sublist [x, y] stretch) ↔
          ∃ stretch ∈ xs.splitOnP cut, List.Sublist [x, y] stretch := by simp
      refine skipped.trans (ih.trans ?_)
      constructor
      · rintro ⟨before, between, after, rfl, open_⟩
        exact ⟨w :: before, between, after, rfl, open_⟩
      · rintro ⟨before, between, after, same, open_⟩
        cases before with
        | nil =>
          cases same
          rw [open_ _ mem_cons_self] at uncut
          contradiction
        | cons z before =>
          cases same
          exact ⟨before, between, after, rfl, open_⟩
    | false =>
      obtain ⟨first, rest, splitInner, splitWhole⟩ := stretches_cons_uncut xs uncut
      rw [splitWhole]
      rw [splitInner] at ih
      constructor
      · rintro ⟨stretch, member, sublist⟩
        rcases mem_cons.mp member with rfl | other
        · rcases pair_sublist_cons.mp sublist with later | ⟨rfl, later⟩
          · obtain ⟨before, between, after, rfl, open_⟩ := ih.mp ⟨first, mem_cons_self, later⟩
            exact ⟨w :: before, between, after, rfl, open_⟩
          · obtain ⟨between, after, rfl, open_⟩ := (mem_first_stretch splitInner).mp later
            refine ⟨[], between, after, rfl, ?_⟩
            intro z member
            rcases mem_cons.mp member with rfl | member
            · exact uncut
            · exact open_ z member
        · obtain ⟨before, between, after, rfl, open_⟩ :=
            ih.mp ⟨stretch, mem_cons_of_mem _ other, sublist⟩
          exact ⟨w :: before, between, after, rfl, open_⟩
      · rintro ⟨before, between, after, same, open_⟩
        cases before with
        | nil =>
          cases same
          refine ⟨x :: first, mem_cons_self, pair_sublist_cons.mpr (.inr ⟨rfl, ?_⟩)⟩
          exact (mem_first_stretch splitInner).mpr
            ⟨between, after, rfl, fun z member => open_ z (mem_cons_of_mem _ member)⟩
        | cons z before =>
          cases same
          obtain ⟨stretch, member, sublist⟩ := ih.mpr ⟨before, between, after, rfl, open_⟩
          rcases mem_cons.mp member with rfl | other
          · exact ⟨w :: stretch, mem_cons_self, pair_sublist_cons.mpr (.inl sublist)⟩
          · exact ⟨stretch, mem_cons_of_mem _ other, sublist⟩

end SwStack.Lib
