import Mathlib

/-! Readers that move an offset over their input. `Yields` says what a reader makes of the
input after what was read before, whatever follows. `Keeps` says that a reader stays inside
its input, moves forward, and fails only as it may. -/
namespace SwStack.Lib

open List

def Cursor (σ : Type u) (ε : Type v) (α : Type w) := List σ → Nat → Except ε (α × Nat)

namespace Cursor

variable {σ : Type u} {ε : Type v} {α β : Type w}

instance : Monad (Cursor σ ε) where
  pure value := fun _ offset => .ok (value, offset)
  bind reader next := fun input offset =>
    (reader input offset).bind fun result => next result.1 input result.2

def fail (failure : ε) : Cursor σ ε α := fun _ _ => .error failure

def times (reader : Cursor σ ε α) : Nat → Cursor σ ε (List α)
  | 0 => pure []
  | count + 1 => do
    let value ← reader
    let values ← times reader count
    pure (value :: values)

/-- Reads values up to the end of the input. -/
def untilEnd (reader : Cursor σ ε α) (unfinished : ε) (input : List σ) :
    Nat → Nat → Except ε (List α)
  | 0, offset => if input.length ≤ offset then .ok [] else .error unfinished
  | fuel + 1, offset =>
    if input.length ≤ offset then .ok []
    else match reader input offset with
    | .ok (value, next) => (untilEnd reader unfinished input fuel next).map (value :: ·)
    | .error failure => .error failure

theorem bind_apply (reader : Cursor σ ε α) (next : α → Cursor σ ε β) (input : List σ)
    (offset : Nat) : (reader >>= next) input offset =
      (reader input offset).bind fun result => next result.1 input result.2 := rfl

theorem pure_apply (value : α) (input : List σ) (offset : Nat) :
    (pure value : Cursor σ ε α) input offset = .ok (value, offset) := rfl

theorem bind_eq_ok {reader : Cursor σ ε α} {next : α → Cursor σ ε β} {input : List σ}
    {offset : Nat} {result : β × Nat} : (reader >>= next) input offset = .ok result ↔
      ∃ value middle, reader input offset = .ok (value, middle) ∧
        next value input middle = .ok result := by
  rw [bind_apply]
  cases reader input offset with
  | error failure =>
    constructor
    · intro same
      cases same
    · rintro ⟨_, _, same, -⟩
      cases same
  | ok read => exact ⟨fun same => ⟨_, _, rfl, same⟩, by rintro ⟨_, _, ⟨⟩, same⟩; exact same⟩

def Yields (reader : Cursor σ ε α) (before input : List σ) (outcome : Except ε α) : Prop :=
  ∀ after, reader (before ++ (input ++ after)) before.length =
    outcome.map fun value => (value, (before ++ input).length)

namespace Yields

variable {before input tail : List σ} {outcome : Except ε α}

theorem pure (value : α) : Yields (Pure.pure value : Cursor σ ε α) before [] (.ok value) := by
  intro after
  rw [append_nil]
  rfl

theorem fail (failure : ε) : Yields (Cursor.fail failure : Cursor σ ε α) before input
    (.error failure) := fun _ => rfl

theorem bind {reader : Cursor σ ε α} {next : α → Cursor σ ε β} {outcome : Except ε β}
    (first : Yields reader before input (.ok value))
    (second : Yields (next value) (before ++ input) tail outcome) :
    Yields (reader >>= next) before (input ++ tail) outcome := by
  intro after
  have read := first (tail ++ after)
  rw [bind_apply, append_assoc, read]
  change next value _ (before ++ input).length = _
  rw [← append_assoc before, second after, ← append_assoc before]

theorem bind_error {reader : Cursor σ ε α} {next : α → Cursor σ ε β} {failure : ε}
    (first : Yields reader before input (.error failure)) :
    Yields (reader >>= next) before (input ++ tail) (.error failure) := by
  intro after
  rw [bind_apply, append_assoc, first]
  rfl

theorem bind_pure (first : Yields reader before input outcome)
    (finish : α → β) : Yields (reader >>= fun value => Pure.pure (finish value)) before input
      (outcome.map finish) := by
  intro after
  rw [bind_apply, first]
  cases outcome <;> rfl

end Yields

/-- Values that each take something are no more than what they take together. -/
theorem length_le_flatMap_of_ne_nil {values : List α}
    (nonempty : ∀ value ∈ values, encode value ≠ []) :
    values.length ≤ (values.flatMap encode).length := by
  induction values with
  | nil => exact Nat.zero_le _
  | cons value values ih =>
    have positive := length_pos_iff.mpr (nonempty value mem_cons_self)
    have rest := ih fun other member => nonempty other (mem_cons_of_mem _ member)
    rw [flatMap_cons, length_append, length_cons]
    omega

/-- Values written one after another are read back up to the end of the input. -/
theorem untilEnd_yields
    (each : ∀ value ∈ values, ∀ before, Yields reader before (encode value) (.ok value))
    (nonempty : ∀ value ∈ values, encode value ≠ []) (enough : values.length ≤ fuel)
    (before : List σ) :
    reader.untilEnd unfinished (before ++ values.flatMap encode) fuel before.length =
      .ok values := by
  induction values generalizing fuel before with
  | nil =>
    have ended : (before ++ List.flatMap encode []).length ≤ before.length := by simp
    cases fuel <;> exact if_pos ended
  | cons value values ih =>
    obtain ⟨fuel, rfl⟩ := Nat.exists_eq_add_of_le' (show 1 ≤ fuel from le_trans (by simp) enough)
    have positive := length_pos_iff.mpr (nonempty value mem_cons_self)
    have read := each value mem_cons_self before (values.flatMap encode)
    have rest := ih (fun other member => each other (mem_cons_of_mem _ member))
      (fun other member => nonempty other (mem_cons_of_mem _ member))
      (show values.length ≤ fuel by simpa using enough) (before ++ encode value)
    rw [append_assoc] at rest
    rw [flatMap_cons, untilEnd, if_neg (by simp only [length_append]; omega), read]
    change (untilEnd reader unfinished _ fuel (before ++ encode value).length).map _ = _
    rw [rest]
    rfl

/-- The offset moves at least `least` forward inside the input, values satisfy `holds`, and
failures `fails`. -/
structure Keeps (reader : Cursor σ ε α) (least : Nat) (fails : ε → Prop) (holds : α → Prop) :
    Prop where
  read : ∀ {input : List σ} {offset : Nat} {value : α} {next : Nat}, offset ≤ input.length →
    reader input offset = .ok (value, next) →
    offset + least ≤ next ∧ next ≤ input.length ∧ holds value
  failed : ∀ {input : List σ} {offset : Nat} {failure : ε}, offset ≤ input.length →
    reader input offset = .error failure → fails failure

namespace Keeps

variable {fails : ε → Prop} {holds : α → Prop} {least : Nat}

theorem pure {value : α} (held : holds value) :
    Keeps (Pure.pure value : Cursor σ ε α) 0 fails holds where
  read inside same := by
    cases same
    exact ⟨le_rfl, inside, held⟩
  failed _ same := by cases same

theorem fail {failure : ε} (may : fails failure) :
    Keeps (Cursor.fail failure : Cursor σ ε α) least fails holds where
  read _ same := by cases same
  failed _ same := by
    cases same
    exact may

theorem bind {reader : Cursor σ ε α} {next : α → Cursor σ ε β} {result : β → Prop} {more : Nat}
    (first : Keeps reader least fails holds)
    (second : ∀ value, holds value → Keeps (next value) more fails result) :
    Keeps (reader >>= next) (least + more) fails result where
  read {input offset value last} inside same := by
    rw [bind_apply] at same
    rcases middle : reader input offset with failure | ⟨found, position⟩
    · rw [middle] at same
      cases same
    · rw [middle] at same
      obtain ⟨moved, reached, held⟩ := first.read inside middle
      obtain ⟨movedOn, ended, good⟩ := (second found held).read reached same
      exact ⟨by omega, ended, good⟩
  failed {input offset failure} inside same := by
    rw [bind_apply] at same
    rcases middle : reader input offset with early | ⟨found, position⟩
    · rw [middle] at same
      cases same
      exact first.failed inside middle
    · rw [middle] at same
      obtain ⟨moved, reached, held⟩ := first.read inside middle
      exact (second found held).failed reached same

theorem ite [Decidable taken]
    (first : Keeps reader least fails holds) (second : Keeps other least fails holds) :
    Keeps (if taken then reader else other) least fails holds := by
  split
  · exact first
  · exact second

theorem weaken (keeps : Keeps reader least fails holds) (less : fewer ≤ least)
    (implies : ∀ value, holds value → weaker value) : Keeps reader fewer fails weaker where
  read inside same := by
    obtain ⟨moved, reached, held⟩ := keeps.read inside same
    exact ⟨by omega, reached, implies _ held⟩
  failed := keeps.failed

theorem times {reader : Cursor σ ε α} (keeps : Keeps reader 0 fails holds) (count : Nat) :
    Keeps (reader.times count) 0 fails fun values =>
      values.length = count ∧ ∀ value ∈ values, holds value := by
  induction count with
  | zero => exact .pure ⟨rfl, by simp⟩
  | succ count ih =>
    refine keeps.bind fun value held => (ih.bind fun values each => .pure ?_ : Keeps _ (0 + 0) _ _)
    refine ⟨by rw [length_cons, each.1], fun other member => ?_⟩
    rcases mem_cons.mp member with rfl | member
    · exact held
    · exact each.2 other member

end Keeps

/-- A reader that moves forward wherever input remains reads its input to the end. -/
theorem untilEnd_keeps {reader : Cursor σ ε α} {fails : ε → Prop} {holds : α → Prop}
    {input : List σ} {unfinished : ε} {fuel offset : Nat}
    (read : ∀ {offset value next}, offset < input.length →
      reader input offset = .ok (value, next) →
      offset < next ∧ next ≤ input.length ∧ holds value)
    (failed : ∀ {offset failure}, offset < input.length →
      reader input offset = .error failure → fails failure)
    (enough : input.length ≤ offset + fuel) :
    (∀ values, reader.untilEnd unfinished input fuel offset = .ok values →
      ∀ value ∈ values, holds value) ∧
    ∀ failure, reader.untilEnd unfinished input fuel offset = .error failure → fails failure := by
  induction fuel generalizing offset with
  | zero =>
    rw [untilEnd, if_pos (by omega)]
    constructor
    · intro values same
      cases same
      simp
    · intro failure same
      cases same
  | succ fuel ih =>
    rw [untilEnd]
    split
    · constructor
      · intro values same
        cases same
        simp
      · intro failure same
        cases same
    rename_i more
    rcases here : reader input offset with failure | ⟨value, next⟩
    · constructor
      · intro values same
        cases same
      · intro other same
        cases same
        exact failed (not_le.mp more) here
    · obtain ⟨moved, reached, held⟩ := read (not_le.mp more) here
      have further : input.length ≤ next + fuel := by omega
      obtain ⟨each, may⟩ := ih further
      dsimp only
      cases rest : reader.untilEnd unfinished input fuel next with
      | error failure =>
        constructor
        · intro values same
          cases same
        · intro other same
          cases same
          exact may failure rest
      | ok values =>
        constructor
        · intro all same
          cases same
          intro other member
          rcases mem_cons.mp member with rfl | member
          · exact held
          · exact each values rest other member
        · intro failure same
          cases same

end Cursor
end SwStack.Lib
