import SwStack.Lib.Segments

/-! Binary search for where a property ends that holds of the first positions only. -/
namespace SwStack.Lib

open List

/-- The first position from `low` on, and below `high`, that a bisection finds without the
property. -/
def bisect (holds : Nat → Bool) : Nat → Nat → Nat → Nat
  | 0, low, _ => low
  | fuel + 1, low, high =>
    if low < high then
      let mid := low + (high - low) / 2
      if holds mid then bisect holds fuel (mid + 1) high else bisect holds fuel low mid
    else low

theorem bisect_eq (split : ∀ position, low ≤ position → position < high →
      (holds position = true ↔ position < bound))
    (above : low ≤ bound) (below : bound ≤ high) (enough : high - low ≤ fuel) :
    bisect holds fuel low high = bound := by
  induction fuel generalizing low high with
  | zero =>
    rw [bisect]
    omega
  | succ fuel ih =>
    rw [bisect]
    by_cases more : low < high
    · rw [if_pos more]
      have here := split (low + (high - low) / 2) (by omega) (by omega)
      by_cases held : holds (low + (high - low) / 2) = true
      · have passed := here.mp held
        simp only [held, if_true]
        exact ih (fun position after => split position (by omega)) (by omega) below (by omega)
      · have reached := mt here.mpr held
        rw [if_neg held]
        exact ih (fun position after before => split position after (by omega)) above
          (by omega) (by omega)
    · rw [if_neg more]
      omega

theorem DownClosed.holds_iff (closed : DownClosed holds rows) (found : rows[position]? = some row) :
    holds row = true ↔ position < (rows.takeWhile holds).length := by
  induction rows generalizing position with
  | nil => cases found
  | cons first rows ih =>
    cases held : holds first with
    | false =>
      rw [takeWhile_cons_of_neg (by simp [held])]
      have member : row = first ∨ row ∈ rows :=
        mem_cons.mp (mem_of_getElem? found)
      have refused : holds row = false := by
        cases member with
        | inl same => rw [same, held]
        | inr later => exact closed.refused held row later
      simp [refused]
    | true =>
      rw [takeWhile_cons_of_pos held, length_cons]
      cases position with
      | zero =>
        obtain rfl : first = row := by simpa using found
        simp [held]
      | succ position =>
        rw [getElem?_cons_succ] at found
        rw [ih (pairwise_cons.mp closed).2 found, Nat.add_lt_add_iff_right]

/-- The bisection of rows of which the first have a property. -/
theorem bisect_takeWhile (closed : DownClosed holds rows)
    (agrees : ∀ position row, rows[position]? = some row →
      test position = holds row) :
    bisect test rows.length 0 rows.length = (rows.takeWhile holds).length := by
  apply bisect_eq
  · intro position _ inside
    have found := getElem?_eq_getElem inside
    rw [agrees position _ found, closed.holds_iff found]
  · exact Nat.zero_le _
  · exact (takeWhile_sublist _).length_le
  · exact Nat.le_refl _

end SwStack.Lib
