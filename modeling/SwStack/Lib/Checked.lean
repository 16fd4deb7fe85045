import Mathlib.Data.List.Basic

/-! Computations that fail with an error: what is known once they succeed. -/
namespace SwStack.Lib

variable {ε α β : Type} {σ : Type}

theorem bind_ok {first : Except ε α} :
    (first >>= next) = .ok result ↔ ∃ value, first = .ok value ∧ next value = .ok result := by
  cases first with
  | error failure =>
    refine ⟨fun same => ?_, fun ⟨value, same, _⟩ => ?_⟩
    · cases same
    · cases same
  | ok value =>
    refine ⟨fun same => ⟨value, rfl, same⟩, fun ⟨other, same, rest⟩ => ?_⟩
    cases same
    exact rest

theorem check_ok {condition : Prop} [Decidable condition] {failure : ε} {rest : Except ε β}
    {result : β} : (if condition then Except.error failure else rest) = .ok result ↔
      ¬ condition ∧ rest = .ok result := by
  split
  · rename_i failed
    refine ⟨fun same => ?_, fun ⟨passed, _⟩ => absurd failed passed⟩
    cases same
  · rename_i passed
    exact ⟨fun same => ⟨passed, same⟩, And.right⟩

/-- A fold that succeeds keeps what every step keeps. -/
theorem foldlM_keeps (holds : σ → Prop) {step : σ → α → Except ε σ} {items : List α}
    {start last : σ} (base : holds start)
    (keeps : ∀ state item next, item ∈ items → holds state → step state item = .ok next →
      holds next) (ran : items.foldlM step start = .ok last) : holds last := by
  induction items generalizing start with
  | nil =>
    cases ran
    exact base
  | cons item items ih =>
    rw [List.foldlM_cons, bind_ok] at ran
    obtain ⟨next, stepped, rest⟩ := ran
    exact ih (keeps start item next List.mem_cons_self base stepped)
      (fun state other after member => keeps state other after (List.mem_cons_of_mem _ member)) rest

end SwStack.Lib
