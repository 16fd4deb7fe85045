import Mathlib

/-! Input that arrives in pieces and is handled in chunks of one size. What a piece leaves of a
chunk is carried to the next piece. The handler may fail, and is told which piece completed its
chunk. -/
namespace SwStack.Lib

open List

variable {α β σ τ ω : Type u}

/-- Handles chunks from the front, as long as there is a whole one. -/
def drainChunks (size : Nat) (handle : List α → σ → Option (List ω × σ)) :
    Nat → List α → σ → Option (List ω × List α × σ)
  | 0, carried, state => some ([], carried, state)
  | fuel + 1, carried, state =>
    if carried.length < size then some ([], carried, state)
    else do
      let (out, state) ← handle (carried.take size) state
      let (more, carried, state) ← drainChunks size handle fuel (carried.drop size) state
      some (out ++ more, carried, state)

/-- Handles items that are given with their stamps. -/
def handleAll (handle : τ → β → σ → Option (List ω × σ)) :
    List (τ × β) → σ → Option (List ω × σ)
  | [], state => some ([], state)
  | (stamp, item) :: items, state => do
    let (out, state) ← handle stamp item state
    let (more, state) ← handleAll handle items state
    some (out ++ more, state)

section Items

variable {handle : τ → β → σ → Option (List ω × σ)}

theorem handleAll_append (first second : List (τ × β)) (state : σ) :
    handleAll handle (first ++ second) state = (do
      let (out, state) ← handleAll handle first state
      let (more, state) ← handleAll handle second state
      some (out ++ more, state)) := by
  induction first generalizing state with
  | nil =>
    cases result : handleAll handle second state with
    | none => simp [handleAll, result]
    | some handled => simp [handleAll, result]
  | cons item items ih =>
    simp only [cons_append, handleAll, ih]
    cases handle item.1 item.2 state with
    | none => rfl
    | some handled =>
      simp only [Option.bind_eq_bind, Option.bind_some]
      cases handleAll handle items handled.2 with
      | none => rfl
      | some handledAll =>
        simp only [Option.bind_some]
        cases handleAll handle second handledAll.2 with
        | none => rfl
        | some handledMore => simp [append_assoc]

/-- Handling these items has this result, whatever their stamps. -/
def Yields (handle : τ → β → σ → Option (List ω × σ)) (items : List β) (state : σ)
    (result : Option (List ω × σ)) : Prop :=
  ∀ stamped, stamped.map Prod.snd = items → handleAll handle stamped state = result

theorem Yields.nil (state : σ) : Yields handle [] state (some ([], state)) := by
  intro stamped same
  rw [map_eq_nil_iff.mp same]
  rfl

theorem Yields.cons {item : β} {items : List β} {state next : σ} {out : List ω}
    {result : Option (List ω × σ)} (handled : ∀ stamp, handle stamp item state = some (out, next))
    (later : Yields handle items next result) :
    Yields handle (item :: items) state
      (result.map fun produced => (out ++ produced.1, produced.2)) := by
  intro stamped same
  obtain ⟨first, rest, rfl, rfl, sameRest⟩ := map_eq_cons_iff.mp same
  simp only [handleAll, handled, Option.bind_eq_bind, Option.bind_some, later rest sameRest]
  cases result with
  | none => rfl
  | some produced => rfl

theorem Yields.fails (failed : ∀ stamp, handle stamp item state = none) :
    Yields handle (item :: items) state none := by
  intro stamped same
  obtain ⟨first, rest, rfl, rfl, sameRest⟩ := map_eq_cons_iff.mp same
  rw [handleAll, failed]
  rfl

theorem Yields.append {first second : List β} {state : σ}
    {result : Option (List ω × σ)}
    (here : Yields handle first state result)
    (continued : List ω × σ → Option (List ω × σ))
    (later : ∀ handled, result = some handled →
      Yields handle second handled.2 (continued handled)) :
    Yields handle (first ++ second) state (result.bind fun handled =>
      (continued handled).map fun produced => (handled.1 ++ produced.1, produced.2)) := by
  intro stamped same
  obtain ⟨before, after, rfl, sameBefore, sameAfter⟩ := map_eq_append_iff.mp same
  rw [handleAll_append, here before sameBefore]
  cases result with
  | none => rfl
  | some handled =>
    simp only [Option.bind_eq_bind, Option.bind_some, later handled rfl after sameAfter]
    cases continued handled with
    | none => rfl
    | some produced => rfl

end Items

variable {size : Nat} {handle : τ → List α → σ → Option (List ω × σ)}

/-- Cuts `input` into whole chunks and a rest. -/
structure Cut (size : Nat) (input : List α) (chunks : List (List α)) (rest : List α) : Prop where
  whole : ∀ chunk ∈ chunks, chunk.length = size
  short : rest.length < size
  covers : chunks.flatten ++ rest = input

theorem Cut.unique {input rest : List α}
    (cut : Cut size input chunks rest) (sized : ∀ packet ∈ packets, packet.length = size)
    (same : packets.flatten = input) : chunks = packets ∧ rest = [] := by
  induction packets generalizing chunks input with
  | nil =>
    have nothing : chunks.flatten ++ rest = [] := cut.covers.trans same.symm
    rw [append_eq_nil_iff] at nothing
    cases chunks with
    | nil => exact ⟨rfl, nothing.2⟩
    | cons chunk chunks =>
      have sizeOf := cut.whole chunk (by simp)
      have short := cut.short
      have empty : chunk = [] := (append_eq_nil_iff.mp nothing.1).1
      simp_all
  | cons packet packets ih =>
    have packetSize := sized packet (by simp)
    have covers : chunks.flatten ++ rest = packet ++ packets.flatten := by
      rw [cut.covers, ← same, flatten_cons]
    cases chunks with
    | nil =>
      have short := cut.short
      have lengths := congrArg List.length covers
      simp only [flatten_nil, nil_append, length_append] at lengths
      omega
    | cons chunk chunks =>
      have chunkSize := cut.whole chunk (by simp)
      rw [flatten_cons, append_assoc] at covers
      obtain ⟨sameChunk, sameRest⟩ :=
        append_inj covers (chunkSize.trans packetSize.symm)
      have later : Cut size packets.flatten chunks rest :=
        ⟨fun other member => cut.whole other (by simp [member]), cut.short, sameRest⟩
      obtain ⟨sameChunks, nothing⟩ :=
        ih later (fun other member => sized other (by simp [member])) rfl
      exact ⟨by rw [sameChunk, sameChunks], nothing⟩

/-- Draining is handling the whole chunks under one stamp. -/
theorem drainChunks_eq (positive : 0 < size) (stamp : τ) (fuel : Nat) (carried : List α)
    (enough : carried.length ≤ fuel) (state : σ) :
    ∃ chunks rest, Cut size carried chunks rest ∧
      drainChunks size (handle stamp) fuel carried state =
        (handleAll handle (chunks.map (Prod.mk stamp)) state).map
          fun handled => (handled.1, rest, handled.2) := by
  induction fuel generalizing carried state with
  | zero =>
    have nothing : carried = [] := length_eq_zero_iff.mp (Nat.le_zero.mp enough)
    exact ⟨[], carried, ⟨by simp, by simpa [nothing] using positive, rfl⟩, rfl⟩
  | succ fuel ih =>
    by_cases short : carried.length < size
    · exact ⟨[], carried, ⟨by simp, short, rfl⟩, by rw [drainChunks, if_pos short]; rfl⟩
    · have takenSize : (carried.take size).length = size := by
        rw [length_take]
        omega
      rw [drainChunks, if_neg short]
      cases taken : handle stamp (carried.take size) state with
      | none =>
        obtain ⟨chunks, rest, cut, _⟩ := ih (carried.drop size) (by simp; omega) state
        refine ⟨carried.take size :: chunks, rest, ⟨?_, cut.short, ?_⟩, ?_⟩
        · simpa [takenSize] using cut.whole
        · rw [flatten_cons, append_assoc, cut.covers, take_append_drop]
        · simp [handleAll, taken]
      | some handled =>
        obtain ⟨chunks, rest, cut, drained⟩ := ih (carried.drop size) (by simp; omega) handled.2
        refine ⟨carried.take size :: chunks, rest, ⟨?_, cut.short, ?_⟩, ?_⟩
        · simpa [takenSize] using cut.whole
        · rw [flatten_cons, append_assoc, cut.covers, take_append_drop]
        · simp only [Option.bind_eq_bind, Option.bind_some, map_cons, handleAll, taken,
            drained]
          cases handleAll handle (chunks.map (Prod.mk stamp)) handled.2 with
          | none => rfl
          | some handledAll => rfl

/-- Handles pieces as they arrive. -/
def feedChunks (size : Nat) (handle : τ → List α → σ → Option (List ω × σ)) :
    List (τ × List α) → List α → σ → Option (List ω × List α × σ)
  | [], carried, state => some ([], carried, state)
  | (stamp, piece) :: pieces, carried, state => do
    let (out, carried, state) ←
      drainChunks size (handle stamp) (carried ++ piece).length (carried ++ piece) state
    let (more, carried, state) ← feedChunks size handle pieces carried state
    some (out ++ more, carried, state)

/-- However the input is cut into pieces, its whole chunks are handled in order. -/
theorem feedChunks_eq (positive : 0 < size) (pieces : List (τ × List α)) (carried : List α)
    (short : carried.length < size) (state : σ) :
    ∃ stamped rest, Cut size (carried ++ (pieces.map Prod.snd).flatten)
        (stamped.map Prod.snd) rest ∧
      feedChunks size handle pieces carried state =
        (handleAll handle stamped state).map fun handled => (handled.1, rest, handled.2) := by
  induction pieces generalizing carried state with
  | nil => exact ⟨[], carried, ⟨by simp, short, by simp⟩, rfl⟩
  | cons piece pieces ih =>
    obtain ⟨chunks, kept, cut, drained⟩ := @drainChunks_eq _ _ _ _ size handle positive piece.1
      (carried ++ piece.2).length (carried ++ piece.2) le_rfl state
    have joined {stamped : List (τ × List α)} {rest : List α}
        (later : Cut size (kept ++ (pieces.map Prod.snd).flatten) (stamped.map Prod.snd) rest) :
        Cut size (carried ++ ((piece :: pieces).map Prod.snd).flatten)
          ((chunks.map (Prod.mk piece.1) ++ stamped).map Prod.snd) rest := by
      refine ⟨?_, later.short, ?_⟩
      · intro chunk member
        rw [map_append, mem_append, map_map] at member
        cases member with
        | inl first => exact cut.whole chunk (by simpa using first)
        | inr second => exact later.whole chunk second
      · have chunksBack : (Prod.snd ∘ Prod.mk (β := List α) piece.1) = id := rfl
        rw [map_append, map_map, chunksBack, map_id, flatten_append,
          append_assoc, later.covers, ← append_assoc, cut.covers, map_cons,
          flatten_cons, append_assoc]
    cases handled : handleAll handle (chunks.map (Prod.mk piece.1)) state with
    | none =>
      obtain ⟨stamped, rest, later, _⟩ := ih kept cut.short state
      refine ⟨_, rest, joined later, ?_⟩
      simp only [feedChunks, drained, handleAll_append, handled, Option.map_none,
        Option.bind_eq_bind, Option.bind_none]
    | some result =>
      obtain ⟨stamped, rest, later, fed⟩ := ih kept cut.short result.2
      refine ⟨_, rest, joined later, ?_⟩
      simp only [feedChunks, drained, handleAll_append, handled, Option.map_some,
        Option.bind_eq_bind, Option.bind_some, fed]
      cases handleAll handle stamped result.2 with
      | none => rfl
      | some more => rfl

/-- Feeding the bytes of whole chunks, however they are cut into pieces. -/
theorem Yields.fed (positive : 0 < size) {chunks : List (List α)}
    (yields : Yields handle chunks state result)
    (sized : ∀ chunk ∈ chunks, chunk.length = size)
    (same : (pieces.map Prod.snd).flatten = chunks.flatten) :
    feedChunks size handle pieces [] state =
      result.map fun produced => (produced.1, [], produced.2) := by
  obtain ⟨stamped, rest, cut, fed⟩ := feedChunks_eq positive pieces [] positive state
  obtain ⟨sameChunks, nothing⟩ := cut.unique sized (by rw [nil_append, same])
  rw [fed, yields stamped sameChunks, nothing]

end SwStack.Lib
