import Mathlib

/-! The lines of a text, given by a separator: where each of them starts, and how edits move the
starts. -/
namespace SwStack.Lib

open List

variable {α : Type u} [DecidableEq α] (sep : α)

/-- The positions after the separators, counted from an offset. -/
def lineStartsFrom (offset : Nat) : List α → List Nat
  | [] => []
  | item :: rest =>
    if item = sep then (offset + 1) :: lineStartsFrom (offset + 1) rest
    else lineStartsFrom (offset + 1) rest

def lineStarts (text : List α) : List Nat := 0 :: lineStartsFrom sep 0 text

variable {sep}

theorem lineStartsFrom_append (offset : Nat) (left right : List α) :
    lineStartsFrom sep offset (left ++ right) =
      lineStartsFrom sep offset left ++ lineStartsFrom sep (offset + left.length) right := by
  induction left generalizing offset with
  | nil => rfl
  | cons item left ih =>
    have shift : offset + 1 + left.length = offset + (item :: left).length := by
      rw [length_cons]
      omega
    rw [cons_append, lineStartsFrom, lineStartsFrom, ih, shift]
    split
    · rfl
    · rfl

theorem lineStartsFrom_add (offset shift : Nat) (text : List α) :
    lineStartsFrom sep (offset + shift) text =
      (lineStartsFrom sep offset text).map (· + shift) := by
  induction text generalizing offset with
  | nil => rfl
  | cons item text ih =>
    rw [lineStartsFrom, lineStartsFrom, Nat.add_right_comm, ih]
    split
    · rfl
    · rfl

theorem length_lineStartsFrom (offset : Nat) (text : List α) :
    (lineStartsFrom sep offset text).length = text.count sep := by
  induction text generalizing offset with
  | nil => rfl
  | cons item text ih =>
    rw [lineStartsFrom, count_cons]
    split
    · rename_i same
      rw [length_cons, ih, same, beq_self_eq_true, if_pos rfl]
    · rename_i differ
      rw [ih, beq_false_of_ne differ, if_neg Bool.false_ne_true, Nat.add_zero]

@[simp] theorem length_lineStarts (text : List α) :
    (lineStarts sep text).length = text.count sep + 1 := by
  rw [lineStarts, length_cons, length_lineStartsFrom]

theorem mem_lineStartsFrom (member : start ∈ lineStartsFrom sep offset text) :
    offset < start ∧ start ≤ offset + text.length := by
  induction text generalizing offset with
  | nil => cases member
  | cons item text ih =>
    rw [lineStartsFrom] at member
    rw [length_cons]
    split at member
    · cases mem_cons.mp member with
      | inl same => omega
      | inr later =>
        have bounds := ih later
        omega
    · have bounds := ih member
      omega

theorem lineStartsFrom_of_not_mem (absent : sep ∉ text) : lineStartsFrom sep offset text = [] := by
  rw [← length_eq_zero_iff, length_lineStartsFrom]
  exact count_eq_zero.mpr absent

/-- The starts up to a position, and those after it. -/
theorem lineStarts_append (left right : List α) :
    lineStarts sep (left ++ right) =
      lineStarts sep left ++ lineStartsFrom sep left.length right := by
  rw [lineStarts, lineStarts, lineStartsFrom_append, Nat.zero_add, cons_append]

theorem mem_lineStarts (member : start ∈ lineStarts sep text) : start ≤ text.length := by
  cases mem_cons.mp member with
  | inl first => omega
  | inr later =>
    have bounds := mem_lineStartsFrom later
    omega

/-- A text is a last line, or a line before a separator and more text. -/
theorem lines_induction {motive : List α → Prop} (last : ∀ line, sep ∉ line → motive line)
    (line : ∀ first rest, sep ∉ first → motive rest → motive (first ++ sep :: rest))
    (text : List α) : motive text := by
  induction size : text.length using Nat.strong_induction_on generalizing text with
  | _ size ih =>
    by_cases member : sep ∈ text
    · obtain ⟨first, rest, rfl, absent⟩ := eq_append_cons_of_mem member
      refine line first rest absent (ih rest.length ?_ rest rfl)
      rw [← size, length_append, length_cons]
      omega
    · exact last text member

theorem not_mem_line {text line : List α} (member : line ∈ text.splitOn sep) : sep ∉ line := by
  induction text using @lines_induction _ _ sep with
  | last text absent =>
    rw [splitOn_eq_singleton absent] at member
    rwa [mem_singleton.mp member]
  | line first rest absent ih =>
    rw [splitOn_append_cons_self_of_not_mem absent] at member
    cases mem_cons.mp member with
    | inl same => rwa [same]
    | inr later => exact ih later

theorem length_splitOn (text : List α) : (text.splitOn sep).length = text.count sep + 1 := by
  induction text using @lines_induction _ _ sep with
  | last line absent =>
    rw [splitOn_eq_singleton absent, count_eq_zero.mpr absent]
    rfl
  | line first rest absent ih =>
    rw [splitOn_append_cons_self_of_not_mem absent, length_cons, ih, count_append,
      count_eq_zero.mpr absent, count_cons_self, Nat.zero_add]

/-- Where a line of the text stands, what follows it and where the next one starts. -/
theorem line_at (offset : Nat) (found : (text.splitOn sep)[index]? = some line) :
    ∃ start, (offset :: lineStartsFrom sep offset text)[index]? = some (offset + start) ∧
      start = (((text.splitOn sep).take index).map fun line => line.length + 1).sum ∧
      ((text.drop start = line ∧
          (offset :: lineStartsFrom sep offset text)[index + 1]? = none) ∨
        ∃ after, text.drop start = line ++ sep :: after ∧
          (offset :: lineStartsFrom sep offset text)[index + 1]? =
            some (offset + start + line.length + 1)) := by
  induction text using @lines_induction _ _ sep generalizing index offset with
  | last text absent =>
    rw [splitOn_eq_singleton absent] at found ⊢
    rw [lineStartsFrom_of_not_mem absent]
    cases index with
    | zero =>
      cases found
      exact ⟨0, rfl, rfl, Or.inl ⟨rfl, rfl⟩⟩
    | succ index => cases found
  | line first rest absent ih =>
    rw [splitOn_append_cons_self_of_not_mem absent] at found ⊢
    have starts : lineStartsFrom sep offset (first ++ sep :: rest) =
        (offset + first.length + 1) :: lineStartsFrom sep (offset + first.length + 1) rest := by
      rw [lineStartsFrom_append, lineStartsFrom_of_not_mem absent, lineStartsFrom, if_pos rfl,
        nil_append]
    rw [starts]
    cases index with
    | zero =>
      cases found
      exact ⟨0, rfl, rfl, Or.inr ⟨rest, rfl, rfl⟩⟩
    | succ index =>
      obtain ⟨start, at', sum, next⟩ := ih (offset + first.length + 1) found
      have drop : (first ++ sep :: rest).drop (first.length + 1 + start) = rest.drop start := by
        rw [Nat.add_assoc, drop_length_add_append, Nat.add_comm, drop_succ_cons]
      refine ⟨first.length + 1 + start, ?_, ?_, ?_⟩
      · rw [getElem?_cons_succ, at']
        exact congrArg some (by omega)
      · rw [take_succ_cons, map_cons, sum_cons, sum]
      · rw [drop]
        obtain ⟨whole, last⟩ | ⟨after, split, here⟩ := next
        · exact Or.inl ⟨whole, last⟩
        · refine Or.inr ⟨after, split, ?_⟩
          rw [getElem?_cons_succ, here]
          exact congrArg some (by omega)

variable (sep) in
def parts (text : List α) : List (List α) := (text.splitOn sep).filter (· ≠ [])

/-- The size of a text with these parts and one separator before each of them. -/
def partsSize (parts : List (List α)) : Nat := (parts.map fun part => part.length + 1).sum

theorem parts_nil : parts sep [] = [] := by
  rw [parts, splitOn_nil]
  rfl

theorem parts_append_cons (text rest : List α) :
    parts sep (text ++ sep :: rest) = parts sep text ++ parts sep rest := by
  rw [parts, splitOn_append_cons_self, filter_append]
  rfl

theorem parts_cons (rest : List α) : parts sep (sep :: rest) = parts sep rest := by
  have apart := @parts_append_cons _ _ sep [] rest
  rwa [parts_nil] at apart

theorem parts_of_absent (absent : sep ∉ part) (nonempty : part ≠ []) : parts sep part = [part] := by
  rw [parts, splitOn_eq_singleton absent, filter_eq_self]
  intro piece member
  rw [mem_singleton.mp member]
  exact decide_eq_true nonempty

theorem mem_parts {part text : List α} (member : part ∈ parts sep text) :
    sep ∉ part ∧ part ≠ [] := by
  obtain ⟨piece, filled⟩ := mem_filter.mp member
  exact ⟨not_mem_line piece, of_decide_eq_true filled⟩

omit [DecidableEq α] in
theorem partsSize_append (first second : List (List α)) :
    partsSize (first ++ second) = partsSize first + partsSize second := by
  rw [partsSize, map_append, sum_append]
  rfl

theorem partsSize_parts_le (text : List α) : partsSize (parts sep text) ≤ text.length + 1 := by
  have line {line : List α} (absent : sep ∉ line) :
      partsSize (parts sep line) ≤ line.length + 1 := by
    by_cases empty : line = []
    · rw [empty, parts_nil]
      exact Nat.zero_le _
    · rw [parts_of_absent absent empty]
      exact le_rfl
  induction text using @lines_induction _ _ sep with
  | last text absent => exact line absent
  | line first rest absent ih =>
    have front := line absent
    rw [parts_append_cons, partsSize_append, length_append, length_cons]
    omega

/-- A text of pieces with one separator between any two. -/
theorem parts_intercalate (pieces : List (List α)) :
    parts sep ([sep].intercalate pieces) = pieces.flatMap (parts sep) := by
  induction pieces with
  | nil => exact parts_nil
  | cons piece pieces ih =>
    cases pieces with
    | nil => simp [intercalate]
    | cons next pieces =>
      rw [intercalate_cons_cons, append_assoc, singleton_append, parts_append_cons, ih,
        @flatMap_cons _ _ piece]

omit [DecidableEq α] in
theorem length_intercalate_add_one (nonempty : pieces ≠ []) :
    ([sep].intercalate pieces).length + 1 = partsSize pieces := by
  induction pieces with
  | nil => exact absurd rfl nonempty
  | cons piece pieces ih =>
    cases pieces with
    | nil => simp [intercalate, partsSize]
    | cons next pieces =>
      have rest := ih (cons_ne_nil next pieces)
      rw [intercalate_cons_cons, append_assoc, singleton_append, partsSize, map_cons, sum_cons,
        length_append, length_cons, ← partsSize, ← rest]
      omega

omit [DecidableEq α] in
theorem mem_intercalate
    (member : item ∈ [sep].intercalate pieces) : item = sep ∨ ∃ piece ∈ pieces, item ∈ piece := by
  induction pieces with
  | nil => cases member
  | cons piece pieces ih =>
    cases pieces with
    | nil => exact .inr ⟨piece, mem_cons_self, by simpa [intercalate] using member⟩
    | cons next pieces =>
      rw [intercalate_cons_cons, append_assoc, singleton_append, mem_append, mem_cons] at member
      rcases member with here | here | later
      · exact .inr ⟨piece, mem_cons_self, here⟩
      · exact .inl here
      · rcases ih later with here | ⟨other, inside, here⟩
        · exact .inl here
        · exact .inr ⟨other, mem_cons_of_mem _ inside, here⟩

omit [DecidableEq α] in
theorem subset_intercalate {piece : List α} {pieces : List (List α)} (member : piece ∈ pieces) :
    piece ⊆ [sep].intercalate pieces := by
  induction pieces with
  | nil => cases member
  | cons first pieces ih =>
    cases pieces with
    | nil => rw [mem_singleton.mp member, intercalate_singleton]; exact fun _ => id
    | cons next pieces =>
      rw [intercalate_cons_cons, append_assoc]
      rcases mem_cons.mp member with rfl | later
      · exact subset_append_left _ _
      · exact fun _ inside => mem_append_right _ (mem_append_right _ (ih later inside))

/-- A text in which no separator stands at an end or beside another. -/
theorem parts_of_full (full : [] ∉ text.splitOn sep) : [sep].intercalate (parts sep text) = text ∧
      partsSize (parts sep text) = text.length + 1 := by
  have all : parts sep text = text.splitOn sep :=
    filter_eq_self.mpr fun part member => decide_eq_true fun empty => full (empty ▸ member)
  have joined := @intercalate_splitOn _ text _ _ sep
  refine ⟨by rw [all, joined], ?_⟩
  rw [all, ← length_intercalate_add_one (splitOn_ne_nil sep text), joined]

end SwStack.Lib
