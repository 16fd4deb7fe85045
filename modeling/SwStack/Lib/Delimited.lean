import Mathlib

/-! Texts cut at the first occurrence of a pattern, and the pieces between the occurrences of two
items in a row. -/
namespace SwStack.Lib

open List

variable {α : Type u} [DecidableEq α]

/-- What stands before and after the first occurrence of a pattern. -/
def cutAt (pattern : List α) : List α → Option (List α × List α)
  | [] => none
  | item :: rest =>
    if pattern.isPrefixOf (item :: rest) then some ([], (item :: rest).drop pattern.length)
    else (cutAt pattern rest).map fun cut => (item :: cut.1, cut.2)

/-- The pieces between the places where `second` follows `first`. -/
def splitPair (first second : α) : List α → List (List α)
  | [] => [[]]
  | [item] => [[item]]
  | item :: next :: rest =>
    if item = first ∧ next = second then [] :: splitPair first second rest
    else (splitPair first second (next :: rest)).modifyHead (item :: ·)

theorem cutAt_cons_of_ne (pattern rest : List α) (different : item ≠ first) :
    cutAt (first :: pattern) (item :: rest) =
      (cutAt (first :: pattern) rest).map fun cut => (item :: cut.1, cut.2) := by
  rw [cutAt, if_neg]
  refine mt isPrefixOf_iff_prefix.mp ?_
  rw [cons_prefix_cons]
  exact fun same => different same.1.symm

theorem cutAt_append_of_not_mem (pattern rest : List α) (absent : first ∉ front) :
    cutAt (first :: pattern) (front ++ rest) =
      (cutAt (first :: pattern) rest).map fun cut => (front ++ cut.1, cut.2) := by
  induction front with
  | nil => exact Option.map_id'.symm
  | cons item front ih =>
    obtain ⟨different, absent⟩ := not_or.mp (mt mem_cons.mpr absent)
    rw [cons_append, cutAt_cons_of_ne pattern _ (Ne.symm different), ih absent,
      Option.map_map]
    rfl

/-- A text is cut at the first place where a mark stands. -/
theorem cut_mark {mark : α} {front rest : List α} (absent : mark ∉ front) :
    (front ++ mark :: rest).takeWhile (· ≠ mark) = front ∧
      ((front ++ mark :: rest).dropWhile (· ≠ mark)).drop 1 = rest := by
  have before : ∀ item ∈ front, decide (item ≠ mark) = true := by
    intro item member
    rw [decide_eq_true_iff]
    rintro rfl
    exact absent member
  have here : decide (mark ≠ mark) = false := decide_eq_false (not_not.mpr rfl)
  rw [takeWhile_append_of_pos before, dropWhile_append_of_pos before,
    takeWhile_cons, dropWhile_cons, here]
  exact ⟨append_nil front, rfl⟩

theorem append_mark_inj {mark : α} (absent : mark ∉ front)
    (otherAbsent : mark ∉ other) (same : front ++ mark :: rest = other ++ mark :: rest') :
    front = other ∧ rest = rest' := by
  have cut := @cut_mark _ _ mark front rest absent
  have otherCut := @cut_mark _ _ mark other rest' otherAbsent
  rw [same] at cut
  exact ⟨cut.1.symm.trans otherCut.1, cut.2.symm.trans otherCut.2⟩

variable {first second : α}

theorem splitPair_pair (rest : List α) : splitPair first second (first :: second :: rest) =
    [] :: splitPair first second rest := if_pos ⟨rfl, rfl⟩

theorem splitPair_other {item next : α} (other : ¬(item = first ∧ next = second))
    (rest : List α) : splitPair first second (item :: next :: rest) =
      (splitPair first second (next :: rest)).modifyHead (item :: ·) := if_neg other

theorem splitPair_cons_of_ne {item : α} (different : item ≠ first) (rest : List α) :
    splitPair first second (item :: rest) =
      (splitPair first second rest).modifyHead (item :: ·) := by
  cases rest with
  | nil => rfl
  | cons next rest => exact splitPair_other (fun same => different same.1) rest

theorem splitPair_append (absent : first ∉ front) (rest : List α) :
    splitPair first second (front ++ first :: second :: rest) =
      front :: splitPair first second rest := by
  induction front with
  | nil => exact splitPair_pair rest
  | cons item front ih =>
    obtain ⟨different, absent⟩ := not_or.mp (mt mem_cons.mpr absent)
    rw [cons_append, splitPair_cons_of_ne (Ne.symm different), ih absent]
    rfl

theorem splitPair_ne_nil (text : List α) : splitPair first second text ≠ [] := by
  induction text using splitPair.induct first second with
  | case1 => exact cons_ne_nil _ _
  | case2 item => exact cons_ne_nil _ _
  | case3 item next rest same ih =>
    obtain ⟨rfl, rfl⟩ := same
    rw [splitPair_pair]
    exact cons_ne_nil _ _
  | case4 item next rest other ih =>
    rw [splitPair_other other]
    cases pieces : splitPair first second (next :: rest) with
    | nil => exact absurd pieces ih
    | cons piece pieces => exact cons_ne_nil _ _

theorem head?_splitPair (member : item ∈ ((splitPair first second text).headD []).head?) :
    item ∈ text.head? := by
  cases text using splitPair.induct first second with
  | case1 => exact member
  | case2 _ => exact member
  | case3 here next rest same _ =>
    rw [same.1, same.2, splitPair_pair] at member
    cases member
  | case4 here next rest other _ =>
    rw [splitPair_other other] at member
    cases pieces : splitPair first second (next :: rest) with
    | nil => exact absurd pieces (splitPair_ne_nil _)
    | cons piece pieces => rwa [pieces] at member

/-- No piece has the pair. -/
theorem splitPair_chain (member : piece ∈ splitPair first second text) :
    piece.IsChain fun item next => ¬(item = first ∧ next = second) := by
  induction text using splitPair.induct first second generalizing piece with
  | case1 => exact mem_singleton.mp member ▸ .nil
  | case2 item => exact mem_singleton.mp member ▸ .singleton item
  | case3 item next rest same ih =>
    rw [same.1, same.2, splitPair_pair] at member
    rcases mem_cons.mp member with rfl | member
    · exact .nil
    · exact ih member
  | case4 item next rest other ih =>
    rw [splitPair_other other] at member
    have follows := @head?_splitPair _ _ first second (next :: rest)
    cases pieces : splitPair first second (next :: rest) with
    | nil => exact absurd pieces (splitPair_ne_nil _)
    | cons piece pieces =>
      rw [pieces] at member ih follows
      rcases mem_cons.mp member with rfl | member
      · refine isChain_cons.mpr ⟨fun byte here same => ?_, ih (mem_cons_self ..)⟩
        cases follows here
        exact other same
      · exact ih (mem_cons_of_mem _ member)

theorem splitPair_append_of_chain (different : first ≠ second)
    (chain : front.IsChain fun item next => ¬(item = first ∧ next = second)) (rest : List α) :
    splitPair first second (front ++ first :: second :: rest) =
      front :: splitPair first second rest := by
  induction front with
  | nil => exact splitPair_pair rest
  | cons item front ih =>
    obtain ⟨here, chain⟩ := isChain_cons.mp chain
    have step := ih chain
    cases front with
    | nil =>
      rw [cons_append, nil_append, splitPair_other fun same => different same.2, splitPair_pair]
      rfl
    | cons next front =>
      rw [cons_append, cons_append, splitPair_other (here next rfl), ← cons_append, step]
      rfl

theorem splitPair_append_pair (different : first ≠ second) (text : List α) :
    splitPair first second (text ++ [first, second]) = splitPair first second text ++ [[]] := by
  induction text using splitPair.induct first second with
  | case1 => exact splitPair_pair []
  | case2 item =>
    rw [singleton_append, splitPair_other fun same => different same.2, splitPair_pair]
    rfl
  | case3 item next rest same ih =>
    obtain ⟨rfl, rfl⟩ := same
    rw [cons_append, cons_append, splitPair_pair, ih, splitPair_pair, cons_append]
  | case4 item next rest other ih =>
    rw [cons_append, cons_append, splitPair_other other, ← cons_append, ih,
      splitPair_other other]
    cases pieces : splitPair first second (next :: rest) with
    | nil => exact absurd pieces (splitPair_ne_nil _)
    | cons piece pieces => rfl

/-- What stands before the first occurrence; the whole text when there is none. -/
def upTo (pattern text : List α) : List α :=
  match cutAt pattern text with
  | some (before, _) => before
  | none => text

theorem upTo_cons (pattern : List α) (item : α) (rest : List α) :
    upTo pattern (item :: rest) =
      if pattern.isPrefixOf (item :: rest) then [] else item :: upTo pattern rest := by
  rw [upTo, upTo, cutAt]
  split
  · rename_i before after found
    split at found
    · rename_i here
      cases found
      rw [if_pos here]
    · rename_i here
      rw [if_neg here]
      obtain ⟨cut, same, pair⟩ := Option.map_eq_some_iff.mp found
      cases pair
      rw [same]
  · rename_i missed
    split at missed
    · cases missed
    · rename_i here
      rw [if_neg here, Option.map_eq_none_iff.mp missed]

theorem head?_upTo {pattern text : List α} {item : α}
    (head : (upTo pattern text).head? = some item) : text.head? = some item := by
  cases text with
  | nil => exact head
  | cons first rest =>
    rw [upTo_cons] at head
    split at head
    · cases head
    · exact head

/-- The pieces before the first empty one are those of the text up to a doubled pair. -/
theorem splitPair_upTo (different : first ≠ second) (text : List α) :
    ∃ piece rest others, splitPair first second text = piece :: rest ∧
      splitPair first second (upTo [first, second, first, second] text) = piece :: others ∧
      rest.takeWhile (· ≠ []) = others.takeWhile (· ≠ []) := by
  induction text using splitPair.induct first second with
  | case1 => exact ⟨[], [], [], rfl, rfl, rfl⟩
  | case2 item =>
    refine ⟨[item], [], [], rfl, ?_, rfl⟩
    rw [upTo_cons, if_neg]
    · rfl
    · refine mt isPrefixOf_iff_prefix.mp ?_
      exact fun inside => absurd inside.length_le (by simp)
  | case3 item next rest same ih =>
    obtain ⟨rfl, rfl⟩ := same
    rw [splitPair_pair, upTo_cons]
    split
    · rename_i doubled
      obtain ⟨more, rfl⟩ : ∃ more, rest = item :: next :: more := by
        obtain ⟨more, same⟩ := isPrefixOf_iff_prefix.mp doubled
        injection same with _ same
        injection same with _ same
        exact ⟨more, same.symm⟩
      rw [splitPair_pair]
      exact ⟨[], [] :: splitPair item next more, [], rfl, rfl, rfl⟩
    · have apart : ¬[item, next, item, next].isPrefixOf (next :: rest) = true := by
        refine mt isPrefixOf_iff_prefix.mp ?_
        rw [cons_prefix_cons]
        exact fun same => different same.1
      obtain ⟨piece, pieces, others, whole, cut, agree⟩ := ih
      rw [upTo_cons, if_neg apart, splitPair_pair]
      refine ⟨[], _, _, rfl, rfl, ?_⟩
      rw [whole, cut, takeWhile_cons, takeWhile_cons, agree]
  | case4 item next rest other ih =>
    obtain ⟨piece, pieces, others, whole, cut, agree⟩ := ih
    rw [splitPair_other other, whole, upTo_cons]
    have single : ¬[first, second, first, second].isPrefixOf (item :: next :: rest) = true := by
      refine mt isPrefixOf_iff_prefix.mp ?_
      rw [cons_prefix_cons, cons_prefix_cons]
      exact fun same => other ⟨same.1.symm, same.2.1.symm⟩
    rw [if_neg single]
    refine ⟨item :: piece, pieces, others, rfl, ?_, agree⟩
    cases front : upTo [first, second, first, second] (next :: rest) with
    | nil =>
      rw [front] at cut
      cases cut
      rfl
    | cons head tail =>
      have same : (next :: rest).head? = some head := head?_upTo (by rw [front]; rfl)
      cases same
      rw [splitPair_other other, ← front, cut]
      rfl

theorem takeWhile_splitPair_upTo (different : first ≠ second) (text : List α) :
    (splitPair first second (upTo [first, second, first, second] text)).takeWhile (· ≠ []) =
      (splitPair first second text).takeWhile (· ≠ []) := by
  obtain ⟨piece, rest, others, whole, cut, agree⟩ := splitPair_upTo different text
  rw [whole, cut, takeWhile_cons, takeWhile_cons, agree]

end SwStack.Lib
