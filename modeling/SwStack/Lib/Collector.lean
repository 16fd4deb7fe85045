import Mathlib

/-! A collector that starts over once it holds every part of its goal. Events that are no part pass
it by. -/
namespace SwStack.Lib.Collector

open List

variable {α : Type u} [DecidableEq α] (goal : Finset α)

/-- What is held after an event, and whether it completed the goal. -/
def step (held : Finset α) : Option α → Finset α × Bool
  | none => (held, false)
  | some part => if goal ⊆ insert part held then (∅, true) else (insert part held, false)

def run (held : Finset α) : List (Option α) → List Bool
  | [] => []
  | event :: events => (step goal held event).2 :: run (step goal held event).1 events

/-- What has been held at some time: the parts among the events on top of the first ones. -/
def gathered (held : Finset α) (events : List (Option α)) : Finset α :=
  held ∪ (events.filterMap id).toFinset

/-- The goal is complete with the event at a position, and was not before. -/
def CompletedAt (held : Finset α) (events : List (Option α)) (position : Nat) : Prop :=
  goal ⊆ gathered held (events.take (position + 1)) ∧ ¬ goal ⊆ gathered held (events.take position)

/-- After the goal is complete its parts do not all come again. -/
def Single (held : Finset α) (events : List (Option α)) : Prop :=
  ∀ before event after, events = before ++ event :: after →
    goal ⊆ gathered held (before ++ [event]) → ¬ goal ⊆ gathered held before →
      ¬ goal ⊆ gathered ∅ after

@[simp] theorem gathered_nil (held : Finset α) : gathered held [] = held := by simp [gathered]

@[simp] theorem gathered_none (held : Finset α) (events : List (Option α)) :
    gathered held (none :: events) = gathered held events := rfl

@[simp] theorem gathered_some (held : Finset α) (part : α) (events : List (Option α)) :
    gathered held (some part :: events) = gathered (insert part held) events := by
  have head : (some part :: events).filterMap id = part :: events.filterMap id := rfl
  rw [gathered, gathered, head, toFinset_cons, Finset.union_insert, Finset.insert_union]

theorem subset_gathered (held : Finset α) (events : List (Option α)) :
    held ⊆ gathered held events := Finset.subset_union_left

variable {goal}

theorem true_mem_run (partial' : ¬ goal ⊆ held) :
    true ∈ run goal held events ↔ goal ⊆ gathered held events := by
  induction events generalizing held with
  | nil => simpa [run] using partial'
  | cons event events ih =>
    cases event with
    | none => simpa [run, step] using ih partial'
    | some part =>
      by_cases complete : goal ⊆ insert part held
      · have all := complete.trans (subset_gathered (insert part held) events)
        simp [run, step, complete, all]
      · simpa [run, step, complete] using ih complete

/-- The events of an unfinished round are counted from the front. -/
theorem completedAt_succ {held next : Finset α}
    (passed : ∀ more, gathered held (event :: more) = gathered next more) :
    CompletedAt goal held (event :: events) (position + 1) ↔
      CompletedAt goal next events position := by
  simp only [CompletedAt, take_succ_cons, passed]

theorem single_cons {held next : Finset α}
    (passed : ∀ more, gathered held (event :: more) = gathered next more)
    (incomplete : ¬ goal ⊆ next) :
    Single goal held (event :: events) ↔ Single goal next events := by
  constructor
  · intro single before last after split complete unfinished
    refine single (event :: before) last after (by rw [split]; rfl) ?_ ?_
    · rwa [cons_append, passed]
    · rwa [passed]
  · intro single before last after split complete unfinished
    cases before with
    | nil =>
      obtain ⟨rfl, rfl⟩ := List.cons.inj split
      rw [nil_append, passed, gathered_nil] at complete
      exact absurd complete incomplete
    | cons first before =>
      obtain ⟨rfl, rest⟩ := List.cons.inj split
      rw [cons_append, passed] at complete
      rw [passed] at unfinished
      exact single before last after rest complete unfinished

/-- A round goes on: nothing is complete with this event. -/
theorem run_cons {held next : Finset α} (stepped : step goal held event = (next, false))
    (passed : ∀ more, gathered held (event :: more) = gathered next more)
    (incomplete : ¬ goal ⊆ next)
    (ih : (∀ position, (run goal next events)[position]? = some true ↔
      CompletedAt goal next events position) ↔ Single goal next events) :
    (∀ position, (run goal held (event :: events))[position]? = some true ↔
      CompletedAt goal held (event :: events) position) ↔ Single goal held (event :: events) := by
  rw [single_cons passed incomplete, ← ih, run, stepped]
  constructor
  · intro all position
    rw [← completedAt_succ passed, ← all (position + 1), getElem?_cons_succ]
  · intro all position
    cases position with
    | zero =>
      have open' : ¬ CompletedAt goal held (event :: events) 0 := by
        intro completed
        have whole := completed.1
        rw [take_succ_cons, passed, take_zero, gathered_nil] at whole
        exact incomplete whole
      simp [open']
    | succ position => rw [completedAt_succ passed, getElem?_cons_succ, all position]

/-- The collector completes its goal exactly when the last missing part comes, if and only if the
parts do not all come again afterwards. -/
theorem completes_once_iff (nonempty : goal.Nonempty) {held : Finset α} (partial' : ¬ goal ⊆ held) :
    (∀ position, (run goal held events)[position]? = some true ↔
      CompletedAt goal held events position) ↔ Single goal held events := by
  induction events generalizing held with
  | nil =>
    refine iff_of_true (fun position => ?_) fun before event after split => ?_
    · simp [run, CompletedAt]
    · simp at split
  | cons event events ih =>
    cases event with
    | none => exact run_cons rfl (gathered_none held) partial' (ih partial')
    | some part =>
      by_cases complete : goal ⊆ insert part held
      · have stepped : step goal held (some part) = (∅, true) := if_pos complete
        have rest : true ∈ run goal ∅ events ↔ goal ⊆ gathered ∅ events :=
          true_mem_run fun empty => nonempty.ne_empty (Finset.subset_empty.mp empty)
        have later (position : Nat) :
            ¬ CompletedAt goal held (some part :: events) (position + 1) := by
          intro completed
          refine completed.2 (complete.trans ?_)
          rw [take_succ_cons, gathered_some]
          exact subset_gathered _ _
        rw [run, stepped]
        constructor
        · intro all before last after split _ unfinished
          cases before with
          | nil =>
            obtain ⟨_, rfl⟩ := List.cons.inj split
            rw [← rest]
            intro again
            obtain ⟨position, found⟩ := mem_iff_getElem?.mp again
            refine later position ((all (position + 1)).mp ?_)
            rwa [getElem?_cons_succ]
          | cons first before =>
            obtain ⟨rfl, _⟩ := List.cons.inj split
            rw [gathered_some] at unfinished
            exact absurd (complete.trans (subset_gathered _ _)) unfinished
        · intro single position
          have silent := single [] (some part) events rfl (by simpa using complete)
            (by simpa using partial')
          cases position with
          | zero => simp [CompletedAt, complete, partial']
          | succ position =>
            refine iff_of_false (fun found => silent (rest.mp ?_)) (later position)
            rw [getElem?_cons_succ] at found
            exact mem_of_getElem? found
      · exact run_cons (if_neg complete) (gathered_some held part) complete (ih complete)

end SwStack.Lib.Collector
