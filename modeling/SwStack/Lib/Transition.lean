import Mathlib
/-! Runs of a partial step function under a condition on each step. -/
namespace SwStack.Lib

variable {σ : Type u} {α : Type v}

/-- The states reached by steps whose action the state allows. -/
inductive Reaches (step : σ → α → Option σ) (allowed : σ → α → Prop) (start : σ) : σ → Prop where
  | refl : Reaches step allowed start start
  | next : Reaches step allowed start state → allowed state action →
      step state action = some following → Reaches step allowed start following

namespace Reaches

variable {step : σ → α → Option σ} {allowed stronger : σ → α → Prop} {start : σ}

theorem trans (first : Reaches step allowed start middle)
    (second : Reaches step allowed middle state) : Reaches step allowed start state := by
  induction second with
  | refl => exact first
  | next _ permitted stepped ih => exact .next ih permitted stepped

/-- The run rule: what every allowed step preserves holds in every state reached. -/
theorem invariant {holds : σ → Prop} (base : holds start)
    (preserved : ∀ {state action following}, holds state → allowed state action →
      step state action = some following → holds following)
    (reached : Reaches step allowed start state) : holds state := by
  induction reached with
  | refl => exact base
  | next _ permitted stepped ih => exact preserved ih permitted stepped

theorem weaken (implies : ∀ {state action}, stronger state action → allowed state action)
    (reached : Reaches step stronger start state) : Reaches step allowed start state := by
  induction reached with
  | refl => exact .refl
  | next _ permitted stepped ih => exact .next ih (implies permitted) stepped

theorem of_foldlM (permitted : ∀ state action, allowed state action)
    (ran : List.foldlM step start actions = some state) : Reaches step allowed start state := by
  induction actions generalizing start with
  | nil =>
    cases ran
    exact .refl
  | cons action actions ih =>
    rw [List.foldlM_cons, Option.bind_eq_bind, Option.bind_eq_some_iff] at ran
    obtain ⟨middle, stepped, rest⟩ := ran
    exact (Reaches.next .refl (permitted start action) stepped).trans (ih rest)

/-- A run given as a list of actions, each checked against its state. -/
theorem of_checked [∀ state action, Decidable (allowed state action)]
    (ran : List.foldlM (fun state action =>
      if allowed state action then step state action else none) start actions = some state) :
    Reaches step allowed start state := by
  induction actions generalizing start with
  | nil =>
    cases ran
    exact .refl
  | cons action actions ih =>
    rw [List.foldlM_cons, Option.bind_eq_bind, Option.bind_eq_some_iff] at ran
    obtain ⟨middle, stepped, rest⟩ := ran
    split at stepped
    · rename_i permitted
      exact (Reaches.next .refl permitted stepped).trans (ih rest)
    · contradiction

end Reaches
end SwStack.Lib
