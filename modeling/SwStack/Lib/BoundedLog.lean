import Mathlib

/-! A log trimmed from its oldest end to a bound on its length and on what its entries cost. It
holds the longest tail of everything logged that is within the bounds, however it was trimmed on
the way. -/
namespace SwStack.Lib.BoundedLog

open List

variable {α : Type u} (cost : α → Nat) (maxCount maxCost : Nat)

def Fits (entries : List α) : Prop :=
  entries.length ≤ maxCount ∧ (entries.map cost).sum ≤ maxCost

instance (entries : List α) : Decidable (Fits cost maxCount maxCost entries) :=
  inferInstanceAs (Decidable (_ ∧ _))

/-- Drops the oldest entries until the others fit. -/
def trim : List α → List α
  | [] => []
  | entry :: rest => if Fits cost maxCount maxCost (entry :: rest) then entry :: rest else trim rest

variable {cost : α → Nat} {maxCount maxCost : Nat} {entries later : List α}

theorem Fits.of_append (fits : Fits cost maxCount maxCost (entries ++ later)) :
    Fits cost maxCount maxCost entries := by
  obtain ⟨count, total⟩ := fits
  rw [length_append] at count
  rw [map_append, sum_append] at total
  constructor <;> omega

theorem trim_suffix (entries : List α) : trim cost maxCount maxCost entries <:+ entries := by
  induction entries with
  | nil => exact suffix_rfl
  | cons entry rest ih =>
    rw [trim]
    split
    · exact suffix_rfl
    · exact ih.trans (suffix_cons entry rest)

theorem trim_fits (entries : List α) :
    Fits cost maxCount maxCost (trim cost maxCount maxCost entries) := by
  induction entries with
  | nil => exact ⟨Nat.zero_le _, Nat.zero_le _⟩
  | cons entry rest ih =>
    rw [trim]
    split
    · assumption
    · exact ih

theorem suffix_trim (kept : later <:+ entries) (fits : Fits cost maxCount maxCost later) :
    later <:+ trim cost maxCount maxCost entries := by
  induction entries with
  | nil => exact kept
  | cons entry rest ih =>
    rw [trim]
    split
    · exact kept
    · rename_i large
      rcases suffix_cons_iff.mp kept with whole | tail
      · exact absurd (whole ▸ fits) large
      · exact ih tail

theorem trim_append_trim (logged more : List α) :
    trim cost maxCount maxCost (trim cost maxCount maxCost logged ++ more) =
      trim cost maxCount maxCost (logged ++ more) := by
  have shorter : trim cost maxCount maxCost (trim cost maxCount maxCost logged ++ more) <:+
      trim cost maxCount maxCost (logged ++ more) := by
    obtain ⟨dropped, split⟩ := @trim_suffix _ cost maxCount maxCost logged
    refine suffix_trim ((trim_suffix _).trans ⟨dropped, ?_⟩) (trim_fits _)
    rw [← append_assoc, split]
  have longer : trim cost maxCount maxCost (logged ++ more) <:+
      trim cost maxCount maxCost (trim cost maxCount maxCost logged ++ more) := by
    refine suffix_trim ?_ (trim_fits _)
    rcases suffix_or_suffix_of_suffix (trim_suffix (logged ++ more))
      (suffix_append logged more) with within | ⟨tail, split⟩
    · exact within.trans (suffix_append _ _)
    · have fits := @trim_fits _ cost maxCount maxCost (logged ++ more)
      have kept := @trim_suffix _ cost maxCount maxCost (logged ++ more)
      rw [← split] at fits kept ⊢
      rw [suffix_append_self_iff] at kept ⊢
      exact suffix_trim kept fits.of_append
  exact shorter.eq_of_length (Nat.le_antisymm shorter.length_le longer.length_le)

end SwStack.Lib.BoundedLog
