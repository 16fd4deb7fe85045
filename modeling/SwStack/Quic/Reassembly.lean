import SwStack.Quic.Stream

/-! What reassembly keeps and what a read returns: parts of the frames received, cut but
never moved. -/
namespace SwStack.Quic

open SwStack.Lib List

/-- What holds of a piece of data at an offset holds of every part of it. -/
def Divides (piece : Nat → Bytes → Prop) : Prop :=
  ∀ {start data}, piece start data → ∀ skip count, skip + count ≤ data.length →
    piece (start + skip) (slice data skip count)

variable {data : Bytes}

theorem length_slice {position length : Nat}
    (fits : position + length ≤ data.length) : (slice data position length).length = length := by
  simp only [slice, length_take, length_drop]
  omega

theorem slice_slice {position length skip count : Nat} (fits : skip + count ≤ length) :
    slice (slice data position length) skip count = slice data (position + skip) count := by
  unfold slice
  rw [drop_take, drop_drop, take_take]
  congr 1
  omega

theorem slice_append_slice (data : Bytes) (position first second : Nat) :
    slice data position first ++ slice data (position + first) second =
      slice data position (first + second) := by
  unfold slice
  rw [← drop_drop, take_add]

section Pieces

variable {piece : Nat → Bytes → Prop}

/-- The uncovered parts of a fragment are parts of it. -/
theorem uncovered_pieces (divides : Divides piece)
    (holds : piece fragmentOffset fragment) (walk : List (Nat × Bytes))
    (ahead : fragmentOffset ≤ cursor)
    (found : uncovered fragmentOffset fragment walk cursor = .ok (additions, reached)) :
    (∀ added ∈ additions, piece added.1 added.2) ∧ fragmentOffset ≤ reached := by
  induction walk generalizing cursor additions with
  | nil =>
    cases found
    exact ⟨fun _ member => absurd member not_mem_nil, ahead⟩
  | cons existing rest ih =>
    obtain ⟨existingStart, data⟩ := existing
    simp only [uncovered] at found
    split at found
    · exact ih ahead found
    · split at found
      · cases found
        exact ⟨fun _ member => absurd member not_mem_nil, ahead⟩
      · rename_i after before
        split at found
        · contradiction
        · split at found
          · rename_i later _ walked
            cases found
            obtain ⟨parts, forward⟩ := ih (ahead.trans (le_max_left _ _)) walked
            refine ⟨fun added member => ?_, forward⟩
            rcases mem_append.mp member with pending | later
            · split at pending
              · rename_i gap
                cases mem_singleton.mp pending
                have part := divides holds (cursor - fragmentOffset)
                  (min existingStart (fragmentOffset + fragment.length) - cursor) (by omega)
                rwa [Nat.add_sub_cancel' ahead] at part
              · exact absurd pending not_mem_nil
            · exact parts added later
          · contradiction

variable {s : Stream}

namespace Stream

/-- Every retained fragment passes a test. -/
def Retains (piece : Nat → Bytes → Prop) (s : Stream) : Prop :=
  ∀ fragment ∈ s.fragments.entries, piece fragment.1 fragment.2

theorem Retains.insertAll {map : SortedMap Nat Bytes}
    (held : ∀ fragment ∈ map.entries, piece fragment.1 fragment.2)
    (additions : List (Nat × Bytes)) (added : ∀ fragment ∈ additions, piece fragment.1 fragment.2) :
    ∀ fragment ∈ (additions.foldl (fun map added => map.insert added.1 added.2) map).entries,
      piece fragment.1 fragment.2 := by
  induction additions generalizing map with
  | nil => exact held
  | cons first rest ih =>
    refine ih (fun fragment member => ?_) fun fragment member =>
      added fragment (mem_cons_of_mem _ member)
    rcases SortedMap.mem_insertEntry member with rfl | old
    · exact added first mem_cons_self
    · exact held fragment old

theorem retain_spec (divides : Divides piece) {kept : Stream} (retains : s.Retains piece)
    (holds : piece fragmentOffset fragment)
    (retained : s.retain fragmentOffset fragment = .ok kept) :
    kept.Retains piece ∧ kept.readOffset = s.readOffset ∧ kept.finReceived = s.finReceived ∧
      kept.finalOffset = s.finalOffset := by
  unfold retain at retained
  split at retained
  · cases retained
    exact ⟨retains, rfl, rfl, rfl⟩
  · split at retained
    · contradiction
    · split at retained
      · contradiction
      · rename_i additions cursor found
        obtain ⟨parts, forward⟩ := uncovered_pieces divides holds _ le_rfl found
        have pieces : ∀ added ∈ (if cursor < fragmentOffset + fragment.length then
              additions ++ [(cursor, slice fragment (cursor - fragmentOffset)
                (fragmentOffset + fragment.length - cursor))]
            else additions), piece added.1 added.2 := by
          intro added member
          split at member
          · rcases mem_append.mp member with early | last
            · exact parts added early
            · cases mem_singleton.mp last
              have part := divides holds (cursor - fragmentOffset)
                (fragmentOffset + fragment.length - cursor) (by omega)
              rwa [Nat.add_sub_cancel' forward] at part
          · exact parts added member
        dsimp only at retained
        generalize (if cursor < fragmentOffset + fragment.length then
            additions ++ [(cursor, slice fragment (cursor - fragmentOffset)
              (fragmentOffset + fragment.length - cursor))]
          else additions) = all at retained pieces
        split at retained
        · contradiction
        · cases retained
          exact ⟨Retains.insertAll retains all pieces, rfl, rfl, rfl⟩

/-- Receiving keeps the fragments parts of what was received, and moves no read offset. A
FIN is noted where its frame ends. -/
theorem receive_spec (divides : Divides piece) (retains : s.Retains piece) (holds : piece offset data)
    (accepted : s.receive offset data fin = .ok received) :
    received.Retains piece ∧ received.readOffset = s.readOffset ∧
      received.finReceived = (s.finReceived || fin) ∧
      received.finalOffset = if fin then offset + data.length else s.finalOffset := by
  have finished {kept : Stream} (same : kept.Retains piece ∧ kept.readOffset = s.readOffset ∧
      kept.finReceived = s.finReceived ∧ kept.finalOffset = s.finalOffset) :
      (kept.finish fin (offset + data.length)).Retains piece ∧
        (kept.finish fin (offset + data.length)).readOffset = s.readOffset ∧
        (kept.finish fin (offset + data.length)).finReceived = (s.finReceived || fin) ∧
        (kept.finish fin (offset + data.length)).finalOffset =
          if fin then offset + data.length else s.finalOffset := by
    unfold finish
    cases fin with
    | false => simpa using same
    | true => exact ⟨same.1, same.2.1, (Bool.or_true _).symm, rfl⟩
  unfold receive at accepted
  dsimp only at accepted
  split at accepted
  · contradiction
  · split at accepted
    · contradiction
    · split at accepted
      · contradiction
      · split at accepted
        · cases accepted
          exact finished ⟨retains, rfl, rfl, rfl⟩
        · split at accepted
          · split at accepted
            · contradiction
            · rename_i beyond overlaps _
              split at accepted
              · rename_i kept retained
                cases accepted
                refine finished (retain_spec divides retains ?_ retained)
                have part := divides holds (s.readOffset - offset)
                  (data.length - (s.readOffset - offset)) (by omega)
                rwa [Nat.add_sub_cancel' overlaps.le] at part
              · contradiction
          · split at accepted
            · rename_i kept retained
              cases accepted
              exact finished (retain_spec divides retains holds retained)
            · contradiction

end Stream

/-- Consecutive pieces from an offset on. -/
inductive Tiles (piece : Nat → Bytes → Prop) : Nat → Bytes → Prop where
  | nil : Tiles piece start []
  | cons : piece start first → Tiles piece (start + first.length) rest →
      Tiles piece start (first ++ rest)

namespace Stream

/-- A read returns parts of the fragments, in order and without a gap. -/
theorem readFragments_spec (divides : Divides piece) {walk : List (Nat × Bytes)}
    (out : Bytes) (retains : s.Retains piece)
    (walked : ∀ fragment ∈ walk, piece fragment.1 fragment.2) :
    (readFragments walk s out).1.Retains piece ∧
      (readFragments walk s out).1.finReceived = s.finReceived ∧
      (readFragments walk s out).1.finalOffset = s.finalOffset ∧
      ∃ read, (readFragments walk s out).2 = out ++ read ∧
        (readFragments walk s out).1.readOffset = s.readOffset + read.length ∧
        Tiles piece s.readOffset read := by
  induction walk generalizing s out with
  | nil => exact ⟨retains, rfl, rfl, [], (append_nil out).symm, rfl, .nil⟩
  | cons fragment rest ih =>
    obtain ⟨start, data⟩ := fragment
    have holds : piece start data := walked _ mem_cons_self
    have later : ∀ fragment ∈ rest, piece fragment.1 fragment.2 :=
      fun fragment member => walked fragment (mem_cons_of_mem _ member)
    have erased {offset : Nat} {buffered : Nat} : Stream.Retains piece { s with
        fragments := s.fragments.erase start, bufferedBytes := buffered, readOffset := offset } :=
      fun fragment member => retains fragment (SortedMap.mem_entries_erase.mp member).1
    have stopped : s.Retains piece ∧ s.finReceived = s.finReceived ∧
        s.finalOffset = s.finalOffset ∧ ∃ read, out = out ++ read ∧
          s.readOffset = s.readOffset + read.length ∧ Tiles piece s.readOffset read :=
      ⟨retains, rfl, rfl, [], (append_nil out).symm, rfl, .nil⟩
    rw [readFragments]
    split
    · exact ih out erased later
    · split
      · exact stopped
      · dsimp only
        split
        · exact stopped
        · rename_i unread reached _
          have fits : (s.readOffset - start) + (data.length - (s.readOffset - start)) ≤
              data.length := by omega
          have length := length_slice fits
          have part := divides holds (s.readOffset - start) _ fits
          rw [Nat.add_sub_cancel' (Nat.le_of_not_lt reached)] at part
          obtain ⟨kept, fin, final, read, returned, moved, tiles⟩ := ih
            (out ++ slice data (s.readOffset - start) (data.length - (s.readOffset - start)))
            erased later
          refine ⟨kept, fin, final, _ ++ read, ?_, ?_, .cons part ?_⟩
          · rw [returned, append_assoc]
          · rw [moved, length_append, length, Nat.add_assoc]
          · rw [length]
            exact tiles

theorem readContiguous_spec (divides : Divides piece) (retains : s.Retains piece) :
    s.readContiguous.1.Retains piece ∧ s.readContiguous.1.finReceived = s.finReceived ∧
      s.readContiguous.1.finalOffset = s.finalOffset ∧
      s.readContiguous.1.readOffset = s.readOffset + s.readContiguous.2.length ∧
      Tiles piece s.readOffset s.readContiguous.2 := by
  obtain ⟨kept, fin, final, read, returned, moved, tiles⟩ :=
    readFragments_spec divides [] retains retains
  have same : s.readContiguous.2 = read := returned
  exact ⟨kept, fin, final, same ▸ moved, same ▸ tiles⟩

/-- A fragment covers the read offset. -/
def Readable (s : Stream) : Prop :=
  ∃ fragment ∈ s.fragments.entries,
    fragment.1 ≤ s.readOffset ∧ s.readOffset < fragment.1 + fragment.2.length

instance (s : Stream) : Decidable s.Readable :=
  inferInstanceAs (Decidable (∃ fragment ∈ s.fragments.entries, _ ∧ _))

theorem readFragments_unreadable (out : Bytes) (beyond : ∀ fragment ∈ walk,
      ¬ (fragment.1 ≤ s.readOffset ∧ s.readOffset < fragment.1 + fragment.2.length)) :
    (readFragments walk s out).2 = out := by
  induction walk generalizing s with
  | nil => rfl
  | cons fragment rest ih =>
    have here := beyond fragment mem_cons_self
    have later := fun other member => beyond other (mem_cons_of_mem fragment member)
    rw [readFragments]
    split
    · exact ih later
    · split
      · rfl
      · omega

theorem readContiguous_unreadable (unreadable : ¬ s.Readable) : s.readContiguous.2 = [] :=
  readFragments_unreadable [] fun fragment member covers => unreadable ⟨fragment, member, covers⟩

end Stream

end Pieces

def EndsWithin (limit start : Nat) (data : Bytes) : Prop := start + data.length ≤ limit

theorem EndsWithin.divides (limit : Nat) : Divides (EndsWithin limit) := by
  intro start data within skip count fits
  unfold EndsWithin at within ⊢
  rw [length_slice fits]
  omega

theorem Tiles.within {limit start : Nat} (tiles : Tiles (EndsWithin limit) start data)
    (before : start ≤ limit) : start + data.length ≤ limit := by
  induction tiles with
  | nil => exact before
  | cons first _ ih =>
    rw [length_append, ← Nat.add_assoc]
    exact ih first

/-- `data` is what `content` has at `start`. -/
structure PieceOf (content : Bytes) (start : Nat) (data : Bytes) : Prop where
  within : start + data.length ≤ content.length
  same : data = slice content start data.length

theorem PieceOf.divides (content : Bytes) : Divides (PieceOf content) := by
  intro start data piece skip count fits
  have within := piece.within
  have length := length_slice fits
  refine ⟨by omega, ?_⟩
  rw [length, piece.same, slice_slice fits]

theorem Tiles.pieceOf
    (tiles : Tiles (PieceOf content) start data) (before : start ≤ content.length) :
    PieceOf content start data := by
  induction tiles with
  | nil => exact ⟨before, rfl⟩
  | cons first _ ih =>
    have rest := ih first.within
    refine ⟨?_, ?_⟩
    · rw [length_append, ← Nat.add_assoc]
      exact rest.within
    · rw [length_append, ← slice_append_slice, ← first.same, ← rest.same]

end SwStack.Quic
