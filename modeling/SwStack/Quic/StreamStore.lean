import SwStack.Quic.Reassembly

/-! The positions fragments cover. One pass with a moving cursor finds the gaps of a frame
between the retained fragments, and what it stores closes exactly these. -/
open List

namespace SwStack.Quic

open SwStack.Lib

abbrev Fragment := Nat × Bytes

namespace Fragment

def stop (fragment : Fragment) : Nat := fragment.1 + fragment.2.length

theorem start_le_stop (fragment : Fragment) : fragment.1 ≤ stop fragment := Nat.le_add_right _ _

def Covers (fragment : Fragment) (position : Nat) : Prop :=
  fragment.1 ≤ position ∧ position < stop fragment

instance (fragment : Fragment) (position : Nat) : Decidable (Covers fragment position) :=
  inferInstanceAs (Decidable (_ ∧ _))

def Apart (left right : Fragment) : Prop := stop left ≤ right.1 ∨ stop right ≤ left.1

theorem Apart.symm (apart : Apart left right) : Apart right left :=
  Or.symm apart

end Fragment

open Fragment

/-- Additions fill the gaps that the retained fragments leave between two positions. -/
structure Fills (retained : List Fragment) (start finish : Nat) (additions : List Fragment) :
    Prop where
  nonempty : ∀ added ∈ additions, added.2 ≠ []
  within : ∀ added ∈ additions, start ≤ added.1 ∧ stop added ≤ finish
  ordered : additions.Pairwise fun left right => stop left ≤ right.1
  apart : ∀ added ∈ additions, ∀ fragment ∈ retained, Apart added fragment
  complete : ∀ position, start ≤ position → position < finish →
    (∃ added ∈ additions, Covers added position) ∨ ∃ fragment ∈ retained, Covers fragment position

namespace Fills

variable {retained : List Fragment} {start finish : Nat} {additions : List Fragment}

theorem nil (empty : finish ≤ start) : Fills retained start finish [] where
  nonempty := by simp
  within := by simp
  ordered := .nil
  apart := by simp
  complete := by
    intro position above below
    omega

theorem single (starts : fragment.1 = start) (stops : stop fragment = finish)
    (proper : start < finish) (apart : ∀ other ∈ retained, Apart fragment other) :
    Fills retained start finish [fragment] where
  nonempty := by
    intro added member empty
    cases mem_singleton.mp member
    rw [stop, empty] at stops
    simp only [length_nil] at stops
    omega
  within := by
    intro added member
    cases mem_singleton.mp member
    omega
  ordered := pairwise_singleton _ _
  apart := by
    intro added member
    cases mem_singleton.mp member
    exact apart
  complete := by
    intro position above below
    refine .inl ⟨fragment, mem_singleton_self _, ?_⟩
    unfold Covers
    omega

/-- A retained fragment closes the stretch up to its end. -/
theorem past (left : fragment.1 ≤ start)
    (rest : Fills retained (max start (stop fragment)) finish additions) :
    Fills (fragment :: retained) start finish additions where
  nonempty := rest.nonempty
  within := by
    intro added member
    have := rest.within added member
    omega
  ordered := rest.ordered
  apart := by
    intro added member other retainedOne
    rcases mem_cons.mp retainedOne with rfl | later
    · have := rest.within added member
      exact .inr (by omega)
    · exact rest.apart added member other later
  complete := by
    intro position above below
    by_cases inside : position < stop fragment
    · exact .inr ⟨fragment, mem_cons_self, left.trans above, inside⟩
    · rcases rest.complete position (by omega) below with found | ⟨other, member, covers⟩
      · exact .inl found
      · exact .inr ⟨other, mem_cons_of_mem _ member, covers⟩

/-- A first addition closes the stretch up to a later start. -/
theorem after (starts : first.1 = start)
    (stops : stop first = middle) (proper : start < middle) (before : middle ≤ finish)
    (apart : ∀ other ∈ retained, Apart first other)
    (rest : Fills retained middle finish additions) :
    Fills retained start finish (first :: additions) where
  nonempty := by
    intro added member
    rcases mem_cons.mp member with rfl | later
    · exact (single starts stops proper apart).nonempty _ (mem_singleton_self _)
    · exact rest.nonempty added later
  within := by
    intro added member
    rcases mem_cons.mp member with rfl | later
    · omega
    · have := rest.within added later
      omega
  ordered := pairwise_cons.mpr
    ⟨fun added member => stops ▸ (rest.within added member).1, rest.ordered⟩
  apart := by
    intro added member
    rcases mem_cons.mp member with rfl | later
    · exact apart
    · exact rest.apart added later
  complete := by
    intro position above below
    by_cases early : position < middle
    · refine .inl ⟨first, mem_cons_self, ?_⟩
      unfold Covers
      omega
    · rcases rest.complete position (by omega) below with ⟨added, member, covers⟩ | found
      · exact .inl ⟨added, mem_cons_of_mem _ member, covers⟩
      · exact .inr found

theorem skip (ends : stop fragment ≤ start) (rest : Fills retained start finish additions) :
    Fills (fragment :: retained) start finish additions where
  nonempty := rest.nonempty
  within := rest.within
  ordered := rest.ordered
  apart := by
    intro added member other retainedOne
    rcases mem_cons.mp retainedOne with rfl | later
    · exact .inr (ends.trans (rest.within added member).1)
    · exact rest.apart added member other later
  complete := by
    intro position above below
    rcases rest.complete position above below with found | ⟨other, member, covers⟩
    · exact .inl found
    · exact .inr ⟨other, mem_cons_of_mem _ member, covers⟩

end Fills

theorem stop_slice {fragmentOffset start finish : Nat} {fragment : Bytes}
    (first : fragmentOffset ≤ start) (last : finish ≤ fragmentOffset + fragment.length)
    (forward : start ≤ finish) :
    stop (start, slice fragment (start - fragmentOffset) (finish - start)) = finish := by
  rw [stop, length_slice (by omega)]
  omega

/-- What is left of the frame behind the last retained fragment. -/
def withTail (fragmentOffset : Nat) (fragment : Bytes) (additions : List Fragment) (cursor : Nat) :
    List Fragment :=
  if cursor < fragmentOffset + fragment.length then
    additions ++ [(cursor, slice fragment (cursor - fragmentOffset)
      (fragmentOffset + fragment.length - cursor))]
  else additions

theorem withTail_cons (fragmentOffset : Nat) (fragment : Bytes) (first : Fragment)
    (additions : List Fragment) (cursor : Nat) :
    withTail fragmentOffset fragment (first :: additions) cursor =
      first :: withTail fragmentOffset fragment additions cursor := by
  unfold withTail
  split
  · rfl
  · rfl

theorem withTail_fills (first : fragmentOffset ≤ cursor)
    (beyond : ∀ other ∈ retained, fragmentOffset + fragment.length ≤ other.1) :
    Fills retained cursor (fragmentOffset + fragment.length)
      (withTail fragmentOffset fragment [] cursor) := by
  unfold withTail
  split
  · rename_i proper
    have stops := stop_slice first le_rfl proper.le
    refine Fills.single rfl stops proper fun other member => .inl ?_
    rw [stops]
    exact beyond other member
  · rename_i done
    exact .nil (by omega)

/-- The pass over the retained fragments finds all the gaps, in order. -/
theorem uncovered_fills (disjoint : retained.Pairwise fun left right => stop left ≤ right.1)
    (ahead : fragmentOffset ≤ cursor)
    (placed : ∀ other ∈ retained, cursor = fragmentOffset ∨ cursor ≤ other.1)
    (found : uncovered fragmentOffset fragment retained cursor = .ok (additions, reached)) :
    Fills retained cursor (fragmentOffset + fragment.length)
      (withTail fragmentOffset fragment additions reached) := by
  induction retained generalizing cursor additions with
  | nil =>
    cases found
    exact withTail_fills ahead (by simp)
  | cons existing rest ih =>
    obtain ⟨later, tail⟩ := pairwise_cons.mp disjoint
    simp only [uncovered] at found
    split at found
    · rename_i ends
      exact .skip (ends.trans ahead)
        (ih tail ahead (fun other member => placed other (mem_cons_of_mem _ member)) found)
    · split at found
      · rename_i before
        cases found
        refine withTail_fills ahead fun other member => ?_
        rcases mem_cons.mp member with rfl | behind
        · exact before
        · have := later other behind
          have := start_le_stop existing
          omega
      · rename_i overlaps inside
        split at found
        · contradiction
        · split at found
          · rename_i gaps _ walked
            cases found
            have existingEnd : existing.1 + existing.2.length = stop existing := rfl
            have forward := start_le_stop existing
            have here := placed existing mem_cons_self
            have onward := ih tail (ahead.trans (le_max_left _ _)) (fun other member =>
              .inr (by have := later other member; omega)) walked
            rw [existingEnd] at onward overlaps
            split
            · rename_i gap
              have first : min existing.1 (fragmentOffset + fragment.length) = existing.1 := by omega
              have stops := @stop_slice fragmentOffset cursor existing.1 fragment ahead (by omega)
                gap.le
              have same : max existing.1 (stop existing) = max cursor (stop existing) := by omega
              rw [first, singleton_append, withTail_cons]
              refine .after rfl stops gap (by omega) (fun other member => .inl ?_)
                (.past le_rfl (same ▸ onward))
              rw [stops]
              rcases mem_cons.mp member with rfl | behind
              · exact le_rfl
              · have := later other behind
                omega
            · rename_i close
              rw [nil_append]
              exact .past (Nat.le_of_not_lt close) onward
          · contradiction

end SwStack.Quic

namespace SwStack.Quic

open SwStack.Lib Fragment

/-- Stretches that hold bytes, and lie apart from each other. -/
structure Separate (map : SortedMap Nat Bytes) : Prop where
  nonempty : ∀ fragment ∈ map.entries, fragment.2 ≠ []
  disjoint : ∀ left ∈ map.entries, ∀ right ∈ map.entries, left.1 < right.1 → stop left ≤ right.1

namespace Separate

variable {map : SortedMap Nat Bytes}

theorem empty : Separate ∅ where
  nonempty := by intro fragment member; cases member
  disjoint := by intro fragment member; cases member

theorem pairwise (separate : Separate map) :
    map.entries.Pairwise fun left right => stop left ≤ right.1 :=
  map.ordered.imp_of_mem fun leftMember rightMember below =>
    separate.disjoint _ leftMember _ rightMember below

theorem lt_stop (nonempty : fragment.2 ≠ []) : fragment.1 < stop fragment :=
  Nat.lt_add_of_pos_right (length_pos_iff.mpr nonempty)

theorem fresh (separate : Separate map) (proper : fragment.2 ≠ [])
    (apart : ∀ other ∈ map.entries, Apart fragment other) : map.find? fragment.1 = none := by
  refine SortedMap.find?_eq_none_iff.mpr fun value member => ?_
  have here := lt_stop proper
  have there := lt_stop (separate.nonempty _ member)
  rcases apart _ member with before | behind
  · exact absurd before (by omega)
  · exact absurd behind (by dsimp only at there ⊢; omega)

theorem insert (separate : Separate map) (proper : fragment.2 ≠ [])
    (apart : ∀ other ∈ map.entries, Apart fragment other) :
    Separate (map.insert fragment.1 fragment.2) := by
  have members : ∀ other ∈ (map.insert fragment.1 fragment.2).entries,
      other = fragment ∨ other ∈ map.entries := by
    intro other member
    rcases SortedMap.mem_entries_insert.mp member with same | ⟨_, old⟩
    · exact .inl same
    · exact .inr old
  have nonempty : ∀ other ∈ (map.insert fragment.1 fragment.2).entries, other.2 ≠ [] := by
    intro other member
    rcases members other member with rfl | old
    · exact proper
    · exact separate.nonempty other old
  refine ⟨nonempty, fun left leftMember right rightMember below => ?_⟩
  have leftStop := lt_stop (nonempty left leftMember)
  have rightStop := lt_stop (nonempty right rightMember)
  -- two stretches that are apart lie in the order of their starts
  have placed : Apart left right → stop left ≤ right.1 := by
    rintro (before | behind)
    · exact before
    · omega
  rcases members left leftMember with rfl | leftOld
  · rcases members right rightMember with rfl | rightOld
    · omega
    · exact placed (apart right rightOld)
  · rcases members right rightMember with rfl | rightOld
    · exact placed (apart left leftOld).symm
    · exact separate.disjoint left leftOld right rightOld below

/-- Storing additions that lie apart from the map and from each other adds them to it. -/
theorem insertAll (separate : Separate map) {additions : List Fragment}
    (nonempty : ∀ added ∈ additions, added.2 ≠ [])
    (ordered : additions.Pairwise fun left right => stop left ≤ right.1)
    (apart : ∀ added ∈ additions, ∀ fragment ∈ map.entries, Apart added fragment) :
    let stored := additions.foldl (fun map added => map.insert added.1 added.2) map
    Separate stored ∧
    (∀ fragment, fragment ∈ stored.entries ↔ fragment ∈ map.entries ∨ fragment ∈ additions) ∧
    stored.total List.length = map.total List.length +
      (additions.map fun added => added.2.length).sum := by
  induction additions generalizing map with
  | nil => exact ⟨separate, by simp, rfl⟩
  | cons first rest ih =>
    obtain ⟨later, tail⟩ := pairwise_cons.mp ordered
    have proper := nonempty first mem_cons_self
    have here := apart first mem_cons_self
    have absent := separate.fresh proper here
    have members : ∀ fragment, fragment ∈ (map.insert first.1 first.2).entries ↔
        fragment = first ∨ fragment ∈ map.entries := by
      intro fragment
      rw [SortedMap.mem_entries_insert]
      refine or_congr_right (and_iff_right_of_imp fun member same => ?_)
      exact SortedMap.find?_eq_none_iff.mp absent fragment.2 (same ▸ member)
    obtain ⟨kept, entries, total⟩ := ih (separate.insert proper here)
      (fun added member => nonempty added (mem_cons_of_mem _ member)) tail
      (fun added member fragment stored => by
        rcases (members fragment).mp stored with rfl | old
        · exact .inr (later added member)
        · exact apart added (mem_cons_of_mem _ member) fragment old)
    refine ⟨kept, fun fragment => ?_, ?_⟩
    · rw [foldl_cons, entries, members, mem_cons]
      tauto
    · rw [foldl_cons, total, SortedMap.total_insert List.length first.2 absent, map_cons,
        sum_cons, Nat.add_assoc]

end Separate

/-- What the stream keeps of the positions received: all of them from the read offset on. -/
structure Stored (content : Bytes) (s : Stream) (received : Nat → Prop) : Prop where
  separate : Separate s.fragments
  pieces : s.Retains (PieceOf content)
  small : ∀ fragment ∈ s.fragments.entries, fragment.2.length ≤ maxSlice
  above : ∀ fragment ∈ s.fragments.entries, s.readOffset ≤ fragment.1
  buffered : s.bufferedBytes = s.fragments.total List.length
  budget : s.bufferedBytes ≤ s.maxBufferedBytes
  covered : ∀ position, s.readOffset ≤ position →
    ((∃ fragment ∈ s.fragments.entries, Covers fragment position) ↔ received position)

namespace Stored

variable {content : Bytes} {s kept : Stream} {received : Nat → Prop}

theorem empty (content : Bytes) (maxBufferedBytes maxFragments : Nat) :
    Stored content (Stream.empty maxBufferedBytes maxFragments) fun _ => False where
  separate := Separate.empty
  pieces := by intro fragment member; cases member
  small := by intro fragment member; cases member
  above := by intro fragment member; cases member
  buffered := rfl
  budget := Nat.zero_le _
  covered := by
    intro position _
    refine iff_of_false ?_ id
    rintro ⟨fragment, member, _⟩
    cases member

theorem congr (stored : Stored content s received)
    (same : ∀ position, s.readOffset ≤ position → (received position ↔ other position)) :
    Stored content s other :=
  { stored with
    covered := fun position unread => (stored.covered position unread).trans (same position unread) }

theorem finish (stored : Stored content s received) (fin : Bool) (endOffset : Nat) :
    Stored content (s.finish fin endOffset) received := by
  unfold Stream.finish
  split
  · exact ⟨stored.separate, stored.pieces, stored.small, stored.above, stored.buffered,
      stored.budget, stored.covered⟩
  · exact stored

/-- Retaining a piece of the content stores its positions and no others. -/
theorem retain {fragmentOffset : Nat} (stored : Stored content s received)
    (unread : s.readOffset ≤ fragmentOffset) (piece : PieceOf content fragmentOffset fragment)
    (retained : s.retain fragmentOffset fragment = .ok kept) :
    Stored content kept fun position =>
      received position ∨ Covers (fragmentOffset, fragment) position := by
  obtain ⟨pieces, sameOffset, _⟩ :=
    Stream.retain_spec (PieceOf.divides content) stored.pieces piece retained
  unfold Stream.retain at retained
  split at retained
  · rename_i nothing
    cases retained
    refine stored.congr fun position _ => ?_
    have uncovered : ¬ Covers (fragmentOffset, fragment) position := by
      unfold Covers stop
      dsimp only
      omega
    rw [or_iff_left uncovered]
  · split at retained
    · contradiction
    · rename_i fits
      split at retained
      · contradiction
      · rename_i additions cursor found
        have fills := uncovered_fills stored.separate.pairwise le_rfl (fun _ _ => .inl rfl) found
        dsimp only at retained
        rw [show (if cursor < fragmentOffset + fragment.length then
            additions ++ [(cursor, slice fragment (cursor - fragmentOffset)
              (fragmentOffset + fragment.length - cursor))]
          else additions) = withTail fragmentOffset fragment additions cursor from rfl] at retained
        generalize withTail fragmentOffset fragment additions cursor = all at retained fills
        split at retained
        · contradiction
        · rename_i affordable
          obtain ⟨separate, entries, total⟩ :=
            stored.separate.insertAll fills.nonempty fills.ordered fills.apart
          cases retained
          refine ⟨separate, pieces, ?_, ?_, ?_, ?_, ?_⟩
          · intro other member
            rcases (entries other).mp member with old | added
            · exact stored.small other old
            · have within := fills.within other added
              unfold stop at within
              omega
          · intro other member
            rcases (entries other).mp member with old | added
            · exact stored.above other old
            · exact unread.trans (fills.within other added).1
          · change s.bufferedBytes + _ = SortedMap.total List.length _
            rw [total, stored.buffered]
          · change s.bufferedBytes + _ ≤ s.maxBufferedBytes
            omega
          · intro position reached
            rw [← stored.covered position reached]
            constructor
            · rintro ⟨other, member, covers⟩
              rcases (entries other).mp member with old | added
              · exact .inl ⟨other, old, covers⟩
              · have within := fills.within other added
                exact .inr ⟨within.1.trans covers.1, lt_of_lt_of_le covers.2 within.2⟩
            · rintro (⟨other, old, covers⟩ | inside)
              · exact ⟨other, (entries other).mpr (.inl old), covers⟩
              · rcases fills.complete position inside.1 inside.2 with
                  ⟨added, member, covers⟩ | ⟨other, old, covers⟩
                · exact ⟨added, (entries added).mpr (.inr member), covers⟩
                · exact ⟨other, (entries other).mpr (.inl old), covers⟩

/-- Taking the fragment at the read offset reads its positions. -/
theorem takeFirst
    (stored : Stored content s received) (entries : s.fragments.entries = (start, data) :: rest)
    (here : start = s.readOffset) :
    Stored content { s with
      fragments := s.fragments.erase start
      bufferedBytes := s.bufferedBytes - data.length
      readOffset := s.readOffset + data.length } received ∧
    (∀ position, s.readOffset ≤ position → position < s.readOffset + data.length →
      received position) ∧
    data.length ≤ maxSlice ∧ data ≠ [] := by
  have first : (start, data) ∈ s.fragments.entries := entries ▸ mem_cons_self
  have members : ∀ fragment, fragment ∈ (s.fragments.erase start).entries ↔
      fragment ∈ s.fragments.entries ∧ fragment.1 ≠ start := fun fragment =>
    SortedMap.mem_entries_erase
  have later : ∀ fragment ∈ (s.fragments.erase start).entries,
      s.readOffset + data.length ≤ fragment.1 := by
    intro fragment member
    obtain ⟨old, different⟩ := (members fragment).mp member
    have above := stored.above fragment old
    exact here ▸ stored.separate.disjoint _ first fragment old (by dsimp only; omega)
  have total := SortedMap.total_erase List.length (SortedMap.find?_of_mem first)
  have buffered := stored.buffered
  refine ⟨⟨⟨?_, ?_⟩, ?_, ?_, later, ?_, ?_, ?_⟩, ?_, stored.small _ first,
    stored.separate.nonempty _ first⟩
  · exact fun fragment member => stored.separate.nonempty fragment ((members fragment).mp member).1
  · exact fun left leftMember right rightMember =>
      stored.separate.disjoint left ((members left).mp leftMember).1 right
        ((members right).mp rightMember).1
  · exact fun fragment member => stored.pieces fragment ((members fragment).mp member).1
  · exact fun fragment member => stored.small fragment ((members fragment).mp member).1
  · change s.bufferedBytes - data.length = SortedMap.total List.length (s.fragments.erase start)
    rw [buffered, total]
    exact Nat.add_sub_cancel _ _
  · exact (Nat.sub_le _ _).trans stored.budget
  · intro position unread
    rw [← stored.covered position ((Nat.le_add_right _ _).trans unread)]
    constructor
    · rintro ⟨fragment, member, covers⟩
      exact ⟨fragment, ((members fragment).mp member).1, covers⟩
    · rintro ⟨fragment, old, covers⟩
      refine ⟨fragment, (members fragment).mpr ⟨old, fun same => ?_⟩, covers⟩
      have single := SortedMap.entry_unique old first same
      have stops := covers.2
      rw [single, stop] at stops
      dsimp only at stops unread
      omega
  · intro position unread within
    rw [← stored.covered position unread]
    refine ⟨(start, data), first, by dsimp only; omega, ?_⟩
    rw [stop]
    dsimp only
    omega

theorem erase_first {map : SortedMap Nat Bytes} (entries : map.entries = (start, data) :: rest) :
    (map.erase start).entries = rest := by
  have ordered := map.ordered
  rw [entries] at ordered
  have later := (pairwise_cons.mp ordered).1
  change map.entries.filter _ = rest
  rw [entries, filter_cons_of_neg (by simp), filter_eq_self.mpr]
  intro fragment member
  exact decide_eq_true (later fragment member).ne'

/-- The read loop stops before the first position that has not been received. -/
theorem readFragments (stored : Stored content s received) (out : Bytes)
    (entries : s.fragments.entries = walk) :
    Stored content (Stream.readFragments walk s out).1 received ∧
    (∀ fragment ∈ (Stream.readFragments walk s out).1.fragments.entries,
      (Stream.readFragments walk s out).1.readOffset < fragment.1) ∧
    ∀ position, s.readOffset ≤ position →
      position < (Stream.readFragments walk s out).1.readOffset → received position := by
  induction walk generalizing s out with
  | nil =>
    refine ⟨stored, fun fragment member => ?_, fun position above below => ?_⟩
    · rw [Stream.readFragments, entries] at member
      cases member
    · exact absurd below (Nat.not_lt.mpr above)
  | cons first rest ih =>
    obtain ⟨start, data⟩ := first
    have member : (start, data) ∈ s.fragments.entries := entries ▸ mem_cons_self
    have above := stored.above _ member
    have proper := length_pos_iff.mpr (stored.separate.nonempty _ member)
    dsimp only at above proper
    rw [Stream.readFragments, if_neg (by omega)]
    split
    · rename_i gap
      refine ⟨stored, fun fragment held => ?_, fun position low high => ?_⟩
      · rw [entries] at held
        rcases mem_cons.mp held with rfl | behind
        · exact gap
        · have ordered := s.fragments.ordered
          rw [entries] at ordered
          exact gap.trans ((pairwise_cons.mp ordered).1 fragment behind)
      · exact absurd high (Nat.not_lt.mpr low)
    · rename_i reached
      have here : start = s.readOffset := by omega
      obtain ⟨taken, read, small, _⟩ := stored.takeFirst entries here
      have whole : data.length - (s.readOffset - start) = data.length := by omega
      dsimp only
      rw [whole, if_neg (Nat.not_lt.mpr small)]
      have remaining : (s.fragments.erase start).entries = rest := erase_first entries
      obtain ⟨kept, beyond, further⟩ := ih taken
        (out ++ slice data (s.readOffset - start) data.length) remaining
      refine ⟨kept, beyond, fun position low high => ?_⟩
      by_cases early : position < s.readOffset + data.length
      · exact read position low early
      · exact further position (Nat.le_of_not_lt early) high

end Stored

structure ReceivedFrame where
  offset : Nat
  data : Bytes
  fin : Bool
  deriving DecidableEq

namespace ReceivedFrame

def piece (frame : ReceivedFrame) : Fragment := (frame.offset, frame.data)

end ReceivedFrame

/-- What a frame has passed when it is accepted, and the part of it that is retained. -/
theorem receive_cases {s received : Stream} {frame : ReceivedFrame}
    (accepted : s.receive frame.offset frame.data frame.fin = .ok received) :
    (frame.fin = true → s.finalConflict (stop frame.piece) = none) ∧
    (s.finReceived = true → stop frame.piece ≤ s.finalOffset) ∧
    ∃ kept, received = kept.finish frame.fin (stop frame.piece) ∧
      ((stop frame.piece ≤ s.readOffset ∧ kept = s) ∨
      (frame.offset < s.readOffset ∧ s.readOffset < stop frame.piece ∧
        s.retain s.readOffset (slice frame.data (s.readOffset - frame.offset)
          (frame.data.length - (s.readOffset - frame.offset))) = .ok kept) ∨
      (s.readOffset ≤ frame.offset ∧ s.retain frame.offset frame.data = .ok kept)) := by
  have stops : frame.offset + frame.data.length = stop frame.piece := rfl
  unfold Stream.receive at accepted
  dsimp only at accepted
  rw [stops] at accepted
  split at accepted
  · contradiction
  · split at accepted
    · contradiction
    · rename_i unconflicted
      have conflict : frame.fin = true → s.finalConflict (stop frame.piece) = none := by
        intro fin
        rwa [if_pos fin] at unconflicted
      split at accepted
      · contradiction
      · rename_i final
        have within : s.finReceived = true → stop frame.piece ≤ s.finalOffset :=
          fun finReceived => Nat.le_of_not_lt fun beyond => final ⟨finReceived, beyond⟩
        refine ⟨conflict, within, ?_⟩
        split at accepted
        · rename_i old
          cases accepted
          exact ⟨s, rfl, .inl ⟨old, rfl⟩⟩
        · rename_i new
          split at accepted
          · rename_i overlaps
            split at accepted
            · contradiction
            · split at accepted
              · rename_i kept retained
                cases accepted
                exact ⟨kept, rfl, .inr (.inl ⟨overlaps, by omega, retained⟩)⟩
              · contradiction
          · rename_i unread
            split at accepted
            · rename_i kept retained
              cases accepted
              exact ⟨kept, rfl, .inr (.inr ⟨by omega, retained⟩)⟩
            · contradiction

/-- Receiving a piece of the content stores the positions of the frame not read yet. -/
theorem Stored.receive {content : Bytes} {s after : Stream} {received : Nat → Prop}
    {frame : ReceivedFrame} (stored : Stored content s received)
    (piece : PieceOf content frame.offset frame.data)
    (accepted : s.receive frame.offset frame.data frame.fin = .ok after) :
    Stored content after fun position => received position ∨ Covers frame.piece position := by
  obtain ⟨_, _, kept, same, cases⟩ := receive_cases accepted
  rw [same]
  refine Stored.finish ?_ _ _
  rcases cases with ⟨old, rfl⟩ | ⟨overlaps, beyond, retained⟩ | ⟨unread, retained⟩
  · refine stored.congr fun position unread => ?_
    rw [or_iff_left]
    exact fun covers => absurd (lt_of_lt_of_le covers.2 old) (Nat.not_lt.mpr unread)
  · have stops : stop frame.piece = frame.offset + frame.data.length := rfl
    have fits : (s.readOffset - frame.offset) +
        (frame.data.length - (s.readOffset - frame.offset)) ≤ frame.data.length := by omega
    have part := PieceOf.divides content piece (s.readOffset - frame.offset) _ fits
    rw [Nat.add_sub_cancel' overlaps.le] at part
    have offset := (Stream.retain_spec (PieceOf.divides content) stored.pieces part retained).2.1
    refine (stored.retain le_rfl part retained).congr fun position unread => or_congr_right ?_
    have length := length_slice fits
    unfold Covers
    rw [stop, length, stops]
    change s.readOffset ≤ position ∧ _ ↔ frame.offset ≤ position ∧ _
    omega
  · exact stored.retain unread piece retained

end SwStack.Quic
