import SwStack.WebSocket.Compression

/-! The loops over the calls of the deflate library. A loop follows the calls that the library needs
for its input, and a library is correct when what such calls put out inflates to the input again. -/
namespace SwStack.WebSocket

open SwStack.Lib

variable {Deflater Inflater : Type}

namespace DeflateLibrary

/-- The calls that deflate an input, until one leaves room. -/
inductive Deflates (library : DeflateLibrary Deflater Inflater) :
    Deflater → Bytes → Deflater → Bytes → Prop
  | last (ok : (library.deflate stream input outputRoom).status = .ok)
      (room : (library.deflate stream input outputRoom).output.length ≠ outputRoom) :
      Deflates library stream input (library.deflate stream input outputRoom).stream
        (library.deflate stream input outputRoom).output
  | more (ok : (library.deflate stream input outputRoom).status = .ok)
      (full : (library.deflate stream input outputRoom).output.length = outputRoom)
      (later : Deflates library (library.deflate stream input outputRoom).stream
        (library.deflate stream input outputRoom).rest next output) :
      Deflates library stream input next
        ((library.deflate stream input outputRoom).output ++ output)

/-- The calls that inflate an input, until it is taken. -/
inductive Inflates (library : DeflateLibrary Deflater Inflater) :
    Inflater → Bytes → Bytes → Inflater → Prop
  | taken : Inflates library stream [] [] stream
  | call (left : input ≠ []) (ok : (library.inflate stream input outputRoom).status = .ok)
      (later : Inflates library (library.inflate stream input outputRoom).stream
        (library.inflate stream input outputRoom).rest output next) :
      Inflates library stream input
        ((library.inflate stream input outputRoom).output ++ output) next

/-- The library is correct. Its calls come to an end, and when a flush left nothing behind in the
stream, an equal context inflates what was put out to the input, and the contexts are equal again. -/
structure Correct (library : DeflateLibrary Deflater Inflater)
    (same : Deflater → Inflater → Prop) (Flushed : Deflater → Prop) : Prop where
  init : ∀ stream, library.deflateInit = some stream →
    ∃ other, library.inflateInit = some other ∧ same stream other
  deflateCalls : ∀ stream input, (library.deflate stream input outputRoom).status = .ok →
    (library.deflate stream input outputRoom).output.length = outputRoom →
    library.deflateCalls (library.deflate stream input outputRoom).stream
        (library.deflate stream input outputRoom).rest <
      library.deflateCalls stream input
  inflateCalls : ∀ stream input later, input ≠ [] →
    (library.inflate stream input outputRoom).status = .ok →
    library.inflateCalls (library.inflate stream input outputRoom).stream
        ((library.inflate stream input outputRoom).rest ++ later) <
      library.inflateCalls stream (input ++ later)
  inverse : ∀ stream other input next output, same stream other →
    library.Deflates stream input next output → Flushed next →
    ∃ body front middle back final, output = body ++ syncTail ∧ front ++ back = input ∧
      library.Inflates other body front middle ∧ library.Inflates middle syncTail back final ∧
      same next final

variable {library : DeflateLibrary Deflater Inflater} {same : Deflater → Inflater → Prop}
  {Flushed : Deflater → Prop}

theorem deflateRounds_of_deflates (correct : library.Correct same Flushed)
    (deflates : library.Deflates stream input next output)
    (enough : library.deflateCalls stream input < calls) :
    library.deflateRounds calls stream input = (next, some output) := by
  induction deflates generalizing calls with
  | @last stream input ok room =>
    obtain ⟨calls, rfl⟩ := Nat.exists_eq_add_of_lt (Nat.zero_lt_of_lt enough)
    rw [Nat.zero_add, deflateRounds]
    dsimp only
    rw [if_neg (not_not.mpr ok), if_pos room]
  | @more stream input next output ok full later ih =>
    obtain ⟨calls, rfl⟩ := Nat.exists_eq_add_of_lt (Nat.zero_lt_of_lt enough)
    have fewer := correct.deflateCalls stream input ok full
    rw [Nat.zero_add] at enough ⊢
    rw [deflateRounds]
    dsimp only
    rw [if_neg (not_not.mpr ok), if_neg (not_not.mpr full), ih (by omega)]
    rfl

theorem deflates_of_deflateRounds
    (rounds : library.deflateRounds calls stream input = (next, some output)) :
    library.Deflates stream input next output := by
  induction calls generalizing stream input output with
  | zero => cases congrArg Prod.snd rounds
  | succ calls ih =>
    rw [deflateRounds] at rounds
    dsimp only at rounds
    split at rounds
    · cases congrArg Prod.snd rounds
    rename_i ok
    split at rounds
    · rename_i room
      cases rounds
      exact .last (not_not.mp ok) room
    rename_i full
    obtain ⟨rfl, joined⟩ := Prod.mk.inj rounds
    obtain ⟨more, found, rfl⟩ := Option.map_eq_some_iff.mp joined
    exact .more (not_not.mp ok) (not_not.mp full) (ih (Prod.ext rfl found))

/-- One more call of the loop that inflates. -/
theorem inflateRounds_call {limit : Nat} {result : Bytes} (left : input ≠ [])
    (ok : (library.inflate stream input outputRoom).status = .ok)
    (fits : 0 < limit →
      (result ++ (library.inflate stream input outputRoom).output).length ≤ limit) :
    library.inflateRounds limit (calls + 1) stream input tailPending result =
      if (library.inflate stream input outputRoom).rest = [] ∧ tailPending = false then
        ((library.inflate stream input outputRoom).stream,
          .message (result ++ (library.inflate stream input outputRoom).output))
      else
        library.inflateRounds limit calls (library.inflate stream input outputRoom).stream
          (library.inflate stream input outputRoom).rest tailPending
          (result ++ (library.inflate stream input outputRoom).output) := by
  have small : ¬ (0 < limit ∧
      limit < (result ++ (library.inflate stream input outputRoom).output).length) :=
    fun large => absurd (fits large.1) (not_le.mpr large.2)
  have whole : input.isEmpty = false := List.isEmpty_eq_false_iff.mpr left
  rw [inflateRounds, if_neg (show ¬ (input = [] ∧ tailPending = true) from fun empty => left empty.1), whole,
    Bool.not_false, Bool.and_true, if_neg (by rw [ok]; decide), if_neg small]
  refine if_congr ?_ rfl rfl
  rw [ok]
  simp

/-- The loop goes on behind an input with its tail. -/
theorem inflateRounds_of_inflates (correct : library.Correct same Flushed) (limit : Nat)
    (result : Bytes) (inflates : library.Inflates stream input output middle)
    (enough : library.inflateCalls stream (input ++ syncTail) < calls)
    (fits : 0 < limit → (result ++ output).length ≤ limit) :
    ∃ left, library.inflateCalls middle syncTail < left ∧
      library.inflateRounds limit calls stream input true result =
        library.inflateRounds limit left middle [] true (result ++ output) := by
  induction inflates generalizing calls result with
  | taken => exact ⟨calls, enough, by rw [List.append_nil]⟩
  | @call input stream output middle left ok later ih =>
    obtain ⟨calls, rfl⟩ := Nat.exists_eq_add_of_lt (Nat.zero_lt_of_lt enough)
    have fewer := correct.inflateCalls stream input syncTail left ok
    rw [Nat.zero_add] at enough ⊢
    rw [← List.append_assoc] at fits ⊢
    rw [inflateRounds_call left ok fun limited => (List.sublist_append_left _ _).length_le.trans
      (fits limited), if_neg (fun stops => Bool.noConfusion stops.2)]
    exact ih _ (by omega) fits

/-- The loop ends with its tail. -/
theorem inflateRounds_tail (correct : library.Correct same Flushed) {limit : Nat}
    {result : Bytes} (inflates : library.Inflates stream input output final) (left : input ≠ [])
    (enough : library.inflateCalls stream input < calls)
    (fits : 0 < limit → (result ++ output).length ≤ limit) :
    library.inflateRounds limit calls stream input false result =
      (final, .message (result ++ output)) := by
  induction inflates generalizing calls result with
  | taken => cases left rfl
  | @call input stream output final _ ok later ih =>
    obtain ⟨calls, rfl⟩ := Nat.exists_eq_add_of_lt (Nat.zero_lt_of_lt enough)
    have fewer := correct.inflateCalls stream input [] left ok
    rw [List.append_nil, List.append_nil] at fewer
    rw [Nat.zero_add] at enough ⊢
    rw [← List.append_assoc] at fits ⊢
    rw [inflateRounds_call left ok fun limited => (List.sublist_append_left _ _).length_le.trans
      (fits limited)]
    by_cases taken : (library.inflate stream input outputRoom).rest = []
    · rw [if_pos ⟨taken, rfl⟩]
      rw [taken] at later
      cases later with
      | taken => rw [List.append_nil]
      | call more => cases more rfl
    · rw [if_neg fun stops => taken stops.1]
      exact ih taken (by omega) fits

theorem availableInput_short (short : input.length < 2 ^ 31) : availableInput input = input := by
  rw [availableInput, Nat.mod_eq_of_lt (by omega), List.take_length]

theorem deflateAll_of_deflates (correct : library.Correct same Flushed)
    (short : input.length < 2 ^ 31) (deflates : library.Deflates stream input next output) :
    library.deflateAll stream input = (next, some output) := by
  rw [deflateAll, availableInput_short short]
  exact deflateRounds_of_deflates correct deflates (Nat.lt_succ_self _)

/-- What an equal context inflates. -/
theorem inflateAll_of_deflates (correct : library.Correct same Flushed) {limit : Nat}
    (agree : same stream other) (deflates : library.Deflates stream message next output)
    (flushed : Flushed next) (short : output.length < 2 ^ 31)
    (fits : 0 < limit → message.length ≤ limit) :
    ∃ body final, output = body ++ syncTail ∧ same next final ∧
      library.inflateAll limit other body = (final, .message message) := by
  obtain ⟨body, front, middle, back, final, rfl, rfl, taken, tail, again⟩ :=
    correct.inverse stream other message next output agree deflates flushed
  refine ⟨body, final, rfl, again, ?_⟩
  rw [List.length_append] at short
  rw [inflateAll, availableInput_short (by omega)]
  obtain ⟨left, enough, goes⟩ := inflateRounds_of_inflates correct limit [] taken
    (Nat.lt_succ_self _)
    fun limited => (List.sublist_append_left front back).length_le.trans (fits limited)
  obtain ⟨calls, rfl⟩ := Nat.exists_eq_add_of_lt (Nat.zero_lt_of_lt enough)
  have turns : library.inflateRounds limit (0 + calls + 1) middle [] true front =
      library.inflateRounds limit (0 + calls + 1) middle syncTail false front := rfl
  rw [goes, List.nil_append, turns, inflateRounds_tail correct tail (by decide) enough fits]

end DeflateLibrary

end SwStack.WebSocket
