import SwStack.Lib.SortedMap

/-! Pull iterators and the two-way merge of a base iterator with sorted overrides. An
iterator is a `next` function; what it yields to its end is the judgment `Drains`. -/
namespace SwStack.Lib

/-- Pulling until `next` answers `none` gives exactly these rows. -/
inductive Drains (next : σ → Option (α × σ)) : σ → List α → Prop where
  | done : next state = none → Drains next state []
  | row : next state = some (value, rest) → Drains next rest rows →
      Drains next state (value :: rows)

/-- What one override contributes when the merge reaches it. -/
inductive Override (α : Type u) where
  | skip
  | stop
  | yield (value : α)

/-- `loaded` is the base row read ahead; `some none` records that the base has ended. -/
structure MergeState (κ : Type u) (ω : Type v) (α : Type w) (σ : Type x) where
  overrides : List (κ × ω)
  loaded : Option (Option α)
  cursor : σ

section

variable {κ : Type u} [LinearOrder κ] {ω : Type v} {α : Type w} {σ : Type x}
variable (next : σ → Option (α × σ)) (keyOf : α → κ) (inRange : κ × ω → Bool)
variable (emit : κ × ω → Override α)

def pull (cursor : σ) : Option α × σ :=
  match next cursor with
  | some (value, rest) => (some value, rest)
  | none => (none, cursor)

/-- One call: overrides at or below the base row come first, and one at the same key
replaces the base row. -/
def mergeLoop : List (κ × ω) → Option α → σ → Option (α × MergeState κ ω α σ)
  | [], none, _ => none
  | [], some row, cursor => some (row, { overrides := [], loaded := none, cursor })
  | override :: rest, none, cursor =>
    if inRange override then
      match emit override with
      | .skip => mergeLoop rest none cursor
      | .stop => none
      | .yield value => some (value, { overrides := rest, loaded := some none, cursor })
    else none
  | override :: rest, some row, cursor =>
    if inRange override && override.1 ≤ keyOf row then
      if override.1 = keyOf row then
        match emit override with
        | .skip => mergeLoop rest (pull next cursor).1 (pull next cursor).2
        | .stop => none
        | .yield value => some (value, { overrides := rest, loaded := none, cursor })
      else
        match emit override with
        | .skip => mergeLoop rest (some row) cursor
        | .stop => none
        | .yield value => some (value, { overrides := rest, loaded := some (some row), cursor })
    else some (row, { overrides := override :: rest, loaded := none, cursor })

def mergeNext (state : MergeState κ ω α σ) : Option (α × MergeState κ ω α σ) :=
  match state.loaded with
  | some row => mergeLoop next keyOf inRange emit state.overrides row state.cursor
  | none =>
    mergeLoop next keyOf inRange emit state.overrides (pull next state.cursor).1
      (pull next state.cursor).2

end

/-- `current` is the segment being filled; it is closed when it holds `size` rows. -/
def segmentRows (size : Nat) (current : List α) : List α → List (List α)
  | [] => if current.isEmpty then [] else [current]
  | row :: rows =>
    if size ≤ current.length + 1 then (current ++ [row]) :: segmentRows size [] rows
    else segmentRows size (current ++ [row]) rows

def nextRow : List (List α) → Option (α × List (List α))
  | [] => none
  | [] :: segments => nextRow segments
  | (row :: rows) :: segments => some (row, rows :: segments)

/-- Lower bound by the last row of each segment, then inside the segment found. -/
def locateStart (below : α → Bool) (segments : List (List α)) : List (List α) :=
  match segments.dropWhile fun segment => (segment.getLast?.map below).getD false with
  | [] => []
  | segment :: rest => segment.dropWhile below :: rest

end SwStack.Lib
