import Mathlib

/-! Words that are escaped and terminated, so that they can be told from what follows. The least
letter is written with a mark behind it, and twice where a word ends; the order of the words is
that of what is written. -/
namespace SwStack.Lib

open List

structure Escape (α : Type u) [LinearOrder α] where
  least : α
  mark : α
  le_all : ∀ letter, least ≤ letter
  least_lt_mark : least < mark

namespace Escape

variable {α : Type u} [LinearOrder α] (code : Escape α)

def letter (letter : α) : List α :=
  if letter = code.least then [code.least, code.mark] else [letter]

def escape (word : List α) : List α := word.flatMap code.letter

def terminate (word : List α) : List α := code.escape word ++ [code.least, code.least]

/-- The word that is read up to its end, and what follows it. -/
def read : List α → Option (List α × List α)
  | [] => none
  | first :: input =>
    if first ≠ code.least then (read input).map fun result => (first :: result.1, result.2)
    else
      match input with
      | [] => none
      | tag :: input =>
        if tag = code.least then some ([], input)
        else if tag ≠ code.mark then none
        else (read input).map fun result => (code.least :: result.1, result.2)

variable {code} {word other : List α}

theorem escape_cons (first : α) (word : List α) :
    code.escape (first :: word) = code.letter first ++ code.escape word := flatMap_cons

theorem escape_of_notMem (absent : code.least ∉ word) : code.escape word = word := by
  induction word with
  | nil => rfl
  | cons first word ih =>
    have plain : first ≠ code.least := fun same => absent (same ▸ mem_cons_self)
    rw [escape_cons, ih fun member => absent (mem_cons_of_mem _ member), letter, if_neg plain]
    rfl

theorem length_escape (word : List α) :
    (code.escape word).length = word.length + word.count code.least := by
  induction word with
  | nil => rfl
  | cons first word ih =>
    rw [escape_cons, length_append, ih, length_cons, count_cons, letter]
    by_cases least : first = code.least
    · rw [if_pos least, if_pos (beq_iff_eq.mpr least)]
      simp only [length_cons, length_nil]
      omega
    · rw [if_neg least, if_neg (mt beq_iff_eq.mp least)]
      simp only [length_cons, length_nil]
      omega

theorem escape_eq_self_iff : code.escape word = word ↔ code.least ∉ word := by
  refine ⟨fun same present => ?_, escape_of_notMem⟩
  have lengths := congrArg List.length same
  have counted := count_pos_iff.mpr present
  rw [length_escape] at lengths
  omega

theorem terminate_cons (first : α) (word : List α) :
    code.terminate (first :: word) = code.letter first ++ code.terminate word := by
  rw [terminate, escape_cons, append_assoc]
  rfl

theorem read_plain (plain : first ≠ code.least) (input : List α) : code.read (first :: input) =
      (code.read input).map fun result => (first :: result.1, result.2) := by
  rw [read.eq_def]
  exact if_pos plain

theorem read_end (input : List α) :
    code.read (code.least :: code.least :: input) = some ([], input) := by
  rw [read.eq_def]
  exact (if_neg (not_not.mpr rfl)).trans (if_pos rfl)

theorem read_marked (input : List α) :
    code.read (code.least :: code.mark :: input) =
      (code.read input).map fun result => (code.least :: result.1, result.2) := by
  rw [read.eq_def]
  exact ((if_neg (not_not.mpr rfl)).trans (if_neg code.least_lt_mark.ne')).trans
    (if_neg (not_not.mpr rfl))

theorem read_bare : code.read [code.least] = none := by
  rw [read.eq_def]
  exact if_neg (not_not.mpr rfl)

theorem read_stray (continues : tag ≠ code.least) (unmarked : tag ≠ code.mark)
    (input : List α) : code.read (code.least :: tag :: input) = none := by
  rw [read.eq_def]
  exact ((if_neg (not_not.mpr rfl)).trans (if_neg continues)).trans (if_pos unmarked)

theorem read_letter (first : α) (input : List α) :
    code.read (code.letter first ++ input) =
      (code.read input).map fun result => (first :: result.1, result.2) := by
  by_cases least : first = code.least
  · rw [letter, if_pos least, least]
    exact read_marked input
  · rw [letter, if_neg least]
    exact read_plain least input

theorem read_terminate (word rest : List α) :
    code.read (code.terminate word ++ rest) = some (word, rest) := by
  induction word with
  | nil => exact read_end rest
  | cons first word ih => rw [terminate_cons, append_assoc, read_letter, ih, Option.map_some]

theorem terminate_of_read_letter (letter : before = code.letter first)
    (ih : ∀ {word}, code.read input = some (word, rest) → input = code.terminate word ++ rest)
    (result : ((code.read input).map fun result => (first :: result.1, result.2)) =
      some (word, rest)) : before ++ input = code.terminate word ++ rest := by
  obtain ⟨⟨tail, after⟩, inner, same⟩ := Option.map_eq_some_iff.mp result
  cases same
  rw [terminate_cons, append_assoc, ← ih inner, letter]

theorem terminate_of_read (result : code.read input = some (word, rest)) :
    input = code.terminate word ++ rest := by
  induction input using read.induct code generalizing word with
  | case1 => cases result
  | case2 first input plain ih =>
    rw [read_plain plain] at result
    have letter : [first] = code.letter first := by rw [Escape.letter, if_neg plain]
    exact terminate_of_read_letter letter ih result
  | case3 first escaped =>
    rw [not_not.mp escaped, read_bare] at result
    cases result
  | case4 first escaped input =>
    rw [not_not.mp escaped, read_end] at result
    cases result
    rw [not_not.mp escaped]
    rfl
  | case5 first escaped tag input continues unmarked =>
    rw [not_not.mp escaped, read_stray continues unmarked] at result
    cases result
  | case6 first escaped tag input continues marked ih =>
    rw [not_not.mp escaped, not_not.mp marked] at result ⊢
    rw [read_marked] at result
    have letter : [code.least, code.mark] = code.letter code.least := by
      rw [Escape.letter, if_pos rfl]
    exact terminate_of_read_letter letter ih result

theorem letter_append_lt_iff {first second : α} {rest after : List α} :
    code.letter first ++ rest < code.letter second ++ after ↔
      first < second ∨ first = second ∧ rest < after := by
  by_cases left : first = code.least
  · by_cases right : second = code.least
    · rw [letter, if_pos left, letter, if_pos right, left, right]
      simp only [cons_append, nil_append, cons_lt_cons_iff, lt_self_iff_false,
        true_and, false_or]
    · have below : code.least < second := lt_of_le_of_ne (code.le_all second) (Ne.symm right)
      rw [letter, if_pos left, letter, if_neg right, left]
      simp only [cons_append, nil_append, cons_lt_cons_iff, below, true_or]
  · by_cases right : second = code.least
    · have above : ¬first < code.least := not_lt_of_ge (code.le_all first)
      rw [letter, if_neg left, letter, if_pos right, right]
      simp only [cons_append, nil_append, cons_lt_cons_iff, above, left, false_and,
        or_self]
    · rw [letter, if_neg left, letter, if_neg right]
      exact cons_lt_cons_iff

theorem end_lt_letter (first : α) (rest after : List α) :
    code.least :: code.least :: rest < code.letter first ++ after := by
  by_cases least : first = code.least
  · rw [letter, if_pos least]
    exact cons_lt_cons_iff.mpr (.inr ⟨rfl, cons_lt_cons_iff.mpr (.inl code.least_lt_mark)⟩)
  · rw [letter, if_neg least]
    exact cons_lt_cons_iff.mpr (.inl (lt_of_le_of_ne (code.le_all first) (Ne.symm least)))

/-- Words are compared first, and what follows them only when they are the same. -/
theorem terminate_append_lt_iff {rest after : List α} :
    code.terminate word ++ rest < code.terminate other ++ after ↔
      word < other ∨ word = other ∧ rest < after := by
  induction word generalizing other with
  | nil =>
    cases other with
    | nil =>
      change code.least :: code.least :: rest < code.least :: code.least :: after ↔ _
      simp only [cons_lt_cons_iff, lt_self_iff_false, true_and, false_or]
    | cons second other =>
      rw [terminate_cons, append_assoc]
      exact iff_of_true (end_lt_letter second _ _) (.inl (nil_lt_cons _ _))
  | cons first word ih =>
    cases other with
    | nil =>
      rw [terminate_cons, append_assoc]
      refine iff_of_false (lt_asymm (end_lt_letter first _ _)) ?_
      rintro (before | ⟨same, -⟩)
      · exact absurd before (not_lt_nil _)
      · cases same
    | cons second other =>
      rw [terminate_cons, terminate_cons, append_assoc, append_assoc,
        letter_append_lt_iff, ih, cons_lt_cons_iff, List.cons.injEq]
      tauto

theorem terminate_lt_iff : code.terminate word < code.terminate other ↔ word < other := by
  have compared : code.terminate word ++ [] < code.terminate other ++ [] ↔
      word < other ∨ word = other ∧ ([] : List α) < [] := terminate_append_lt_iff
  rwa [append_nil, append_nil, iff_false_intro (not_lt_nil _), and_false,
    or_false] at compared

end Escape
end SwStack.Lib
