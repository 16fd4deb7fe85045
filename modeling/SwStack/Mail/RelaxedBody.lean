import SwStack.Mail.Dkim

/-! The relaxed form of a body as RFC 6376 section 3.4.4 has it, and the bodies for which the
code computes it. -/
open List

namespace SwStack.Mail

open SwStack.Lib SwStack.Types

/-- Of a run of blanks the last one stays, as a space, where a byte follows it. -/
def relaxedLine : Bytes → Bytes
  | [] => []
  | byte :: rest =>
    if isWsp byte then
      if rest.head?.any fun next => !isWsp next then 0x20 :: relaxedLine rest
      else relaxedLine rest
    else byte :: relaxedLine rest

/-- The lines up to the last one that is not empty, each with its line end. -/
def relaxedBody (body : Bytes) : Bytes :=
  (((splitPair 0x0d 0x0a body).map relaxedLine).rdropWhile (· = [])).flatMap (· ++ crlf)

/-- Some line of the body has more than blanks. -/
def HasText (body : Bytes) : Prop :=
  ∃ line ∈ splitPair 0x0d 0x0a body, ∃ byte ∈ line, !isWsp byte

theorem relaxedLine_text (text : isWsp byte = false) (rest : Bytes) :
    relaxedLine (byte :: rest) = byte :: relaxedLine rest :=
  if_neg (ne_true_of_eq_false text)

theorem relaxedLine_last (blank : isWsp byte) (text : isWsp second = false) (rest : Bytes) :
    relaxedLine (byte :: second :: rest) = 0x20 :: second :: relaxedLine rest := by
  rw [relaxedLine, if_pos blank, relaxedLine_text text]
  exact if_pos (by rw [head?_cons, Option.any_some, text]; rfl)

theorem relaxedLine_run (blank : isWsp byte) (again : isWsp second) (rest : Bytes) :
    relaxedLine (byte :: second :: rest) = relaxedLine (second :: rest) := by
  rw [relaxedLine, if_pos blank]
  exact if_neg (by rw [head?_cons, Option.any_some, again]; decide)

theorem relaxedLine_blank (blank : isWsp byte) (rest : Bytes) :
    relaxedLine (byte :: rest) =
      if relaxedLine rest = [] then [] else 0x20 :: (relaxedLine rest).dropWhile isWsp := by
  induction rest generalizing byte with
  | nil => exact if_pos blank
  | cons next rest ih =>
    cases same : isWsp next with
    | false =>
      rw [relaxedLine_last blank same, relaxedLine_text same, dropWhile_cons, same]
      rfl
    | true =>
      rw [relaxedLine_run blank same, ih same]
      by_cases empty : relaxedLine rest = []
      · rw [if_pos empty, if_pos rfl]
      · rw [if_neg empty, if_neg (cons_ne_nil _ _), dropWhile_cons_of_pos (by decide),
          dropWhile_idempotent]

theorem relaxedLine_eq_nil_iff : relaxedLine line = [] ↔ ¬∃ byte ∈ line, !isWsp byte := by
  induction line with
  | nil => simp [relaxedLine]
  | cons byte rest ih =>
    cases blank : isWsp byte with
    | false => simp [relaxedLine_text blank, blank]
    | true => simp [relaxedLine_blank blank, blank, ih]

theorem relaxedLine_relaxedLine (line : Bytes) :
    relaxedLine (relaxedLine line) = relaxedLine line := by
  induction line with
  | nil => rfl
  | cons byte rest ih =>
    cases blank : isWsp byte with
    | false => rw [relaxedLine_text blank, relaxedLine_text blank, ih]
    | true =>
      cases rest with
      | nil => rw [relaxedLine_blank blank]; rfl
      | cons next rest =>
        cases text : isWsp next with
        | true => rw [relaxedLine_run blank text, ih]
        | false =>
          rw [relaxedLine_text text, relaxedLine_text text] at ih
          rw [relaxedLine_last blank text, relaxedLine_last (by decide) text,
            (cons_inj_right _).mp ih]

/-- Line ends inside a line do not come about. -/
theorem relaxedLine_chain
    (chain : line.IsChain fun byte next => ¬(byte = 0x0d ∧ next = 0x0a)) :
    (relaxedLine line).IsChain fun byte next => ¬(byte = 0x0d ∧ next = 0x0a) := by
  induction line with
  | nil => exact .nil
  | cons byte rest ih =>
    obtain ⟨here, chain⟩ := isChain_cons.mp chain
    cases blank : isWsp byte with
    | true =>
      rw [relaxedLine, if_pos blank]
      split
      · exact isChain_cons.mpr ⟨fun _ _ same => absurd same.1 (by decide), ih chain⟩
      · exact ih chain
    | false =>
      rw [relaxedLine_text blank]
      refine isChain_cons.mpr ⟨?_, ih chain⟩
      cases rest with
      | nil => exact fun _ never => absurd never (Option.not_mem_none _)
      | cons next rest =>
        cases follows : isWsp next with
        | false =>
          rw [relaxedLine_text follows]
          exact here
        | true =>
          rw [relaxedLine_blank follows]
          split
          · exact fun _ never => absurd never (Option.not_mem_none _)
          · intro space member same
            cases member
            exact absurd same.2 (by decide)

theorem stripTrailing_cons (blank : UInt8 → Bool) (byte : UInt8) (rest : Bytes) :
    stripTrailing blank (byte :: rest) =
      if stripTrailing blank rest = [] then (if blank byte then [] else [byte])
      else byte :: stripTrailing blank rest := by
  rw [stripTrailing, stripTrailing, reverse_cons, dropWhile_append]
  simp only [List.isEmpty_iff, reverse_eq_nil_iff, dropWhile_cons, dropWhile_nil]
  split
  · split <;> rfl
  · rw [reverse_append, reverse_singleton, singleton_append]

theorem stripTrailing_eq_nil_iff : stripTrailing isWsp line = [] ↔ relaxedLine line = [] := by
  rw [stripTrailing, reverse_eq_nil_iff, dropWhile_eq_nil_iff, relaxedLine_eq_nil_iff]
  simp

theorem foldl_reduceStep (line out : Bytes) (seen : Bool) :
    ((stripTrailing isWsp line).foldl (reduceStep isWsp) (out, seen)).1 =
      out ++ if seen then (relaxedLine line).dropWhile isWsp else relaxedLine line := by
  induction line generalizing out seen with
  | nil => cases seen <;> exact (append_nil out).symm
  | cons byte rest ih =>
    cases blank : isWsp byte with
    | false =>
      have kept : stripTrailing isWsp (byte :: rest) = byte :: stripTrailing isWsp rest := by
        rw [stripTrailing_cons, blank]
        split
        · next empty => rw [empty]; rfl
        · rfl
      rw [kept, foldl_cons, reduceStep, blank, relaxedLine_text blank, dropWhile_cons, blank]
      simpa using ih (out ++ [byte]) false
    | true =>
      by_cases empty : stripTrailing isWsp rest = []
      · rw [stripTrailing_cons, if_pos empty, if_pos blank, relaxedLine_blank blank,
          if_pos (stripTrailing_eq_nil_iff.mp empty)]
        cases seen <;> exact (append_nil out).symm
      · rw [stripTrailing_cons, if_neg empty, foldl_cons, reduceStep, if_pos blank, ih,
          relaxedLine_blank blank, if_neg (mt stripTrailing_eq_nil_iff.mpr empty)]
        cases seen with
        | false => exact append_assoc out [0x20] _
        | true => rw [if_pos rfl, if_pos rfl, if_pos rfl, dropWhile_cons_of_pos (by decide),
            dropWhile_idempotent]

theorem reduceBlanks_stripTrailing (line : Bytes) :
    reduceBlanks isWsp (stripTrailing isWsp line) = relaxedLine line :=
  foldl_reduceStep line [] false

theorem canonicalizeBodyRelaxed_eq (raw : Bytes) :
    canonicalizeBodyRelaxed raw =
      if relaxedBody (messageBody raw) = [] then crlf else relaxedBody (messageBody raw) := by
  simp only [canonicalizeBodyRelaxed, reduceBlanks_stripTrailing]
  rfl

theorem flatMap_lines_eq_nil_iff {lines : List Bytes} :
    lines.flatMap (· ++ crlf) = [] ↔ lines = [] := by
  cases lines with
  | nil => simp
  | cons line lines => simp [crlf]

theorem relaxedBody_eq_nil_iff : relaxedBody body = [] ↔ ¬HasText body := by
  rw [relaxedBody, flatMap_lines_eq_nil_iff, rdropWhile_eq_nil_iff, HasText]
  simp [relaxedLine_eq_nil_iff]

theorem splitPair_lines {lines : List Bytes}
    (chains : ∀ line ∈ lines, line.IsChain fun byte next => ¬(byte = 0x0d ∧ next = 0x0a)) :
    splitPair 0x0d 0x0a (lines.flatMap (· ++ crlf)) = lines ++ [[]] := by
  induction lines with
  | nil => rfl
  | cons line lines ih =>
    obtain ⟨here, others⟩ := forall_mem_cons.mp chains
    rw [flatMap_cons, append_assoc, cons_append, ← ih others]
    exact splitPair_append_of_chain (by decide) here _

theorem relaxedBody_relaxedBody (body : Bytes) :
    relaxedBody (relaxedBody body) = relaxedBody body := by
  have kept : ((splitPair 0x0d 0x0a body).map relaxedLine).rdropWhile (· = []) ⊆
      (splitPair 0x0d 0x0a body).map relaxedLine := List.IsPrefix.subset <| rdropWhile_prefix _ _
  rw [relaxedBody.eq_def (relaxedBody body), relaxedBody, splitPair_lines, map_append,
    map_singleton, relaxedLine, rdropWhile_concat_pos _ _ _ (by simp)]
  · have same : ((((splitPair 0x0d 0x0a body).map relaxedLine).rdropWhile (· = [])).map
        relaxedLine) = ((splitPair 0x0d 0x0a body).map relaxedLine).rdropWhile (· = []) := by
      refine (map_congr_left fun line member => ?_).trans (map_id _)
      obtain ⟨piece, -, rfl⟩ := mem_map.mp (kept member)
      exact relaxedLine_relaxedLine piece
    rw [same, rdropWhile_idempotent]
  · intro line member
    obtain ⟨piece, inside, rfl⟩ := mem_map.mp (kept member)
    exact relaxedLine_chain (splitPair_chain inside)

/-- The code's form of a body is the relaxed one, and its own form again when it stands as a body,
exactly for the bodies with text: to any other body it gives a line end. -/
theorem canonicalizeBodyRelaxed_conforms_iff (raw : Bytes) :
    (canonicalizeBodyRelaxed raw = relaxedBody (messageBody raw) ∧
      ∀ message, messageBody message = canonicalizeBodyRelaxed raw →
        canonicalizeBodyRelaxed message = canonicalizeBodyRelaxed raw) ↔
      HasText (messageBody raw) := by
  rw [canonicalizeBodyRelaxed_eq]
  constructor
  · rintro ⟨conforms, _⟩
    by_contra blank
    rw [relaxedBody_eq_nil_iff.mpr blank] at conforms
    exact absurd conforms (by decide)
  · intro text
    rw [if_neg fun empty => relaxedBody_eq_nil_iff.mp empty text]
    refine ⟨rfl, fun message same => ?_⟩
    rw [canonicalizeBodyRelaxed_eq, same, relaxedBody_relaxedBody,
      if_neg fun empty => relaxedBody_eq_nil_iff.mp empty text]

theorem canonicalizeBodyRelaxed_empty :
    canonicalizeBodyRelaxed (ascii "Subject: x" ++ crlfcrlf) = crlf ∧
      relaxedBody (messageBody (ascii "Subject: x" ++ crlfcrlf)) = [] := by
  decide

end SwStack.Mail
