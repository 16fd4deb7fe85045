import SwStack.Quic.StreamStore

/-! Any frames of one byte string and any reads: what has been read is always a front part of
the string, and a stream is complete when a FIN has come and all before it is read. -/
namespace SwStack.Quic

open SwStack.Lib Fragment List

inductive StreamCall where
  | receive (frame : ReceivedFrame)
  | readContiguous
  deriving DecidableEq

/-- A stream with the frames it has accepted and the bytes read from it. -/
structure ReassemblyRun where
  stream : Stream
  accepted : List ReceivedFrame
  out : Bytes
  deriving DecidableEq

namespace ReassemblyRun

def start (maxBufferedBytes maxFragments : Nat) : ReassemblyRun :=
  { stream := Stream.empty maxBufferedBytes maxFragments, accepted := [], out := [] }

/-- All checks of a frame come before the first change, so a refused one leaves the stream. -/
def step (run : ReassemblyRun) : StreamCall → ReassemblyRun
  | .receive frame =>
    match run.stream.receive frame.offset frame.data frame.fin with
    | .ok stream => { run with stream := stream, accepted := run.accepted ++ [frame] }
    | .error _ => run
  | .readContiguous =>
    { run with
      stream := run.stream.readContiguous.1
      out := run.out ++ run.stream.readContiguous.2 }

def execute (run : ReassemblyRun) (calls : List StreamCall) : ReassemblyRun := calls.foldl step run

def Received (run : ReassemblyRun) (position : Nat) : Prop :=
  ∃ frame ∈ run.accepted, Covers frame.piece position

end ReassemblyRun

/-- A FIN that conflicts with nothing ends the stream behind all that is read or kept. -/
theorem finalConflict_none {s : Stream} (separate : Separate s.fragments)
    (unconflicted : s.finalConflict endOffset = none) :
    (s.finReceived = true → s.finalOffset = endOffset) ∧ s.readOffset ≤ endOffset ∧
      (s.finReceived = false → ∀ fragment ∈ s.fragments.entries, stop fragment ≤ endOffset) := by
  unfold Stream.finalConflict at unconflicted
  split at unconflicted
  · cases unconflicted
  · rename_i agrees
    split at unconflicted
    · cases unconflicted
    · rename_i unread
      refine ⟨fun fin => ?_, Nat.le_of_not_lt unread, fun unfinished fragment member => ?_⟩
      · by_contra different
        exact agrees ⟨fin, different⟩
      · rw [if_neg (by rw [unfinished]; exact Bool.false_ne_true)] at unconflicted
        cases last : s.fragments.entries.getLast? with
        | none =>
          rw [getLast?_eq_none_iff.mp last] at member
          cases member
        | some final =>
          rw [last] at unconflicted
          dsimp only at unconflicted
          split at unconflicted
          · cases unconflicted
          · rename_i within
            have finalStop : stop final = final.1 + final.2.length := rfl
            obtain ⟨finalMember, highest⟩ :=
              (SortedMap.getLast?_eq_some_iff s.fragments.ordered).mp last
            rcases (highest fragment member).lt_or_eq with before | same
            · have := separate.disjoint fragment member final finalMember before
              omega
            · rw [SortedMap.entry_unique member finalMember same]
              omega

/-- What holds of every run whose accepted frames are parts of one byte string. -/
structure Reassembled (content : Bytes) (run : ReassemblyRun) : Prop where
  stored : Stored content run.stream run.Received
  inside : run.stream.readOffset ≤ content.length
  out : run.out = content.take run.stream.readOffset
  consumed : ∀ position < run.stream.readOffset, run.Received position
  fin : run.stream.finReceived = true ↔ ∃ frame ∈ run.accepted, frame.fin = true
  final : ∀ frame ∈ run.accepted, frame.fin = true → stop frame.piece = run.stream.finalOffset
  ends : run.stream.finReceived = true → run.stream.readOffset ≤ run.stream.finalOffset ∧
    ∀ position, run.Received position → position < run.stream.finalOffset

variable {frame : ReceivedFrame}

namespace Reassembled

variable {content : Bytes} {run : ReassemblyRun}

theorem start (content : Bytes) (maxBufferedBytes maxFragments : Nat) :
    Reassembled content (.start maxBufferedBytes maxFragments) where
  stored := (Stored.empty content maxBufferedBytes maxFragments).congr fun position _ => by
    simp [ReassemblyRun.Received, ReassemblyRun.start]
  inside := Nat.zero_le _
  out := rfl
  consumed := by
    intro position below
    exact absurd below (Nat.not_lt_zero _)
  fin := by simp [ReassemblyRun.start, Stream.empty]
  final := by simp [ReassemblyRun.start]
  ends := by
    intro finished
    cases finished

theorem received_append (run : ReassemblyRun) (stream : Stream) (frame : ReceivedFrame)
    (position : Nat) :
    ReassemblyRun.Received { run with stream := stream, accepted := run.accepted ++ [frame] }
      position ↔ run.Received position ∨ Covers frame.piece position := by
  simp [ReassemblyRun.Received, or_and_right, exists_or]

theorem receive {after : Stream} (reassembled : Reassembled content run)
    (piece : PieceOf content frame.offset frame.data)
    (accepted : run.stream.receive frame.offset frame.data frame.fin = .ok after) :
    Reassembled content { run with stream := after, accepted := run.accepted ++ [frame] } := by
  have stored := reassembled.stored
  obtain ⟨_, offset, finReceived, finalOffset⟩ :=
    Stream.receive_spec (PieceOf.divides content) stored.pieces piece accepted
  obtain ⟨unconflicted, within, _⟩ := receive_cases accepted
  refine ⟨?_, ?_, ?_, ?_, ?_, ?_, ?_⟩
  · refine (stored.receive piece accepted).congr fun position _ => ?_
    rw [received_append]
  · exact offset ▸ reassembled.inside
  · exact offset ▸ reassembled.out
  · intro position below
    rw [received_append]
    exact .inl (reassembled.consumed position (offset ▸ below))
  · change after.finReceived = true ↔ _
    rw [finReceived, Bool.or_eq_true, reassembled.fin]
    simp [or_and_right, exists_or]
  · intro other member finished
    change stop other.piece = after.finalOffset
    rw [finalOffset]
    rcases mem_append.mp member with old | new
    · have same := reassembled.final other old finished
      have already := reassembled.fin.mpr ⟨other, old, finished⟩
      split
      · rename_i fin
        have agrees := (finalConflict_none stored.separate (unconflicted fin)).1 already
        exact same.trans agrees
      · exact same
    · cases mem_singleton.mp new
      rw [if_pos finished]
      rfl
  · intro finished
    change after.finReceived = true at finished
    change after.readOffset ≤ after.finalOffset ∧ _
    rw [offset, finalOffset]
    by_cases fin : frame.fin = true
    · obtain ⟨agrees, unread, free⟩ := finalConflict_none stored.separate (unconflicted fin)
      have stops : frame.offset + frame.data.length = stop frame.piece := rfl
      rw [if_pos fin, stops]
      refine ⟨unread, fun position received => ?_⟩
      rcases (received_append run after frame position).mp received with old | new
      · cases already : run.stream.finReceived with
        | true =>
          have := (reassembled.ends already).2 position old
          rwa [agrees already] at this
        | false =>
          by_cases read : position < run.stream.readOffset
          · omega
          · obtain ⟨fragment, member, covers⟩ :=
              (stored.covered position (Nat.le_of_not_lt read)).mpr old
            exact lt_of_lt_of_le covers.2 (free already fragment member)
      · exact new.2
    · have already : run.stream.finReceived = true := by
        rw [finReceived, Bool.or_eq_true] at finished
        exact finished.resolve_right fin
      rw [if_neg fin]
      refine ⟨(reassembled.ends already).1, fun position received => ?_⟩
      rcases (received_append run after frame position).mp received with old | new
      · exact (reassembled.ends already).2 position old
      · exact lt_of_lt_of_le new.2 (within already)

/-- A read returns what follows in the content up to the first position not received. -/
theorem readContiguous (reassembled : Reassembled content run) :
    Reassembled content (run.step .readContiguous) ∧
      ¬ run.Received run.stream.readContiguous.1.readOffset := by
  have stored := reassembled.stored
  obtain ⟨_, finReceived, finalOffset, moved, tiles⟩ :=
    Stream.readContiguous_spec (PieceOf.divides content) stored.pieces
  have piece := tiles.pieceOf reassembled.inside
  obtain ⟨kept, beyond, further⟩ := stored.readFragments [] rfl
  change Stored content run.stream.readContiguous.1 run.Received at kept
  change ∀ fragment ∈ run.stream.readContiguous.1.fragments.entries,
    run.stream.readContiguous.1.readOffset < fragment.1 at beyond
  change ∀ position, run.stream.readOffset ≤ position →
    position < run.stream.readContiguous.1.readOffset → run.Received position at further
  have consumed : ∀ position < run.stream.readContiguous.1.readOffset, run.Received position := by
    intro position below
    by_cases old : position < run.stream.readOffset
    · exact reassembled.consumed position old
    · exact further position (Nat.le_of_not_lt old) below
  refine ⟨⟨kept, ?_, ?_, consumed, ?_, ?_, ?_⟩, fun received => ?_⟩
  · exact moved ▸ piece.within
  · change run.out ++ run.stream.readContiguous.2 =
      content.take run.stream.readContiguous.1.readOffset
    rw [moved, reassembled.out, take_add]
    exact congrArg _ piece.same
  · change run.stream.readContiguous.1.finReceived = true ↔ _
    rw [finReceived]
    exact reassembled.fin
  · change ∀ frame ∈ run.accepted, _ → _ = run.stream.readContiguous.1.finalOffset
    rw [finalOffset]
    exact reassembled.final
  · change run.stream.readContiguous.1.finReceived = true →
      run.stream.readContiguous.1.readOffset ≤ run.stream.readContiguous.1.finalOffset ∧
        ∀ position, run.Received position → position < run.stream.readContiguous.1.finalOffset
    rw [finReceived, finalOffset]
    intro finished
    obtain ⟨before, all⟩ := reassembled.ends finished
    refine ⟨?_, all⟩
    by_contra passed
    -- the last position read has been received, so it lies before the final offset
    have last := all (run.stream.readContiguous.1.readOffset - 1) (consumed _ (by omega))
    omega
  · obtain ⟨fragment, member, covers⟩ := (kept.covered _ le_rfl).mpr received
    exact absurd covers.1 (Nat.not_le.mpr (beyond fragment member))

theorem step (reassembled : Reassembled content run) (call : StreamCall)
    (pieces : ∀ frame ∈ (run.step call).accepted, PieceOf content frame.offset frame.data) :
    Reassembled content (run.step call) := by
  cases call with
  | readContiguous => exact reassembled.readContiguous.1
  | receive frame =>
    unfold ReassemblyRun.step at pieces ⊢
    dsimp only at pieces ⊢
    cases accepted : run.stream.receive frame.offset frame.data frame.fin with
    | error message => exact reassembled
    | ok after =>
      rw [accepted] at pieces
      exact reassembled.receive
        (pieces frame (mem_append_right _ (mem_singleton_self _))) accepted

end Reassembled

namespace ReassemblyRun

theorem accepted_step (run : ReassemblyRun) (call : StreamCall)
    (member : frame ∈ run.accepted) : frame ∈ (run.step call).accepted := by
  cases call with
  | readContiguous => exact member
  | receive other =>
    unfold step
    dsimp only
    split
    · exact mem_append_left _ member
    · exact member

theorem accepted_execute (run : ReassemblyRun) (calls : List StreamCall)
    (member : frame ∈ run.accepted) : frame ∈ (run.execute calls).accepted := by
  induction calls generalizing run with
  | nil => exact member
  | cons call rest ih => exact ih (run.step call) (accepted_step run call member)

end ReassemblyRun

theorem Reassembled.execute {content : Bytes} {run : ReassemblyRun}
    (reassembled : Reassembled content run) (calls : List StreamCall)
    (pieces : ∀ frame ∈ (run.execute calls).accepted, PieceOf content frame.offset frame.data) :
    Reassembled content (run.execute calls) := by
  induction calls generalizing run with
  | nil => exact reassembled
  | cons call rest ih =>
    refine ih (reassembled.step call fun frame member => ?_) pieces
    exact pieces frame (ReassemblyRun.accepted_execute _ rest member)

theorem maxBufferedBytes_retain {s kept : Stream}
    (retained : s.retain fragmentOffset fragment = .ok kept) :
    kept.maxBufferedBytes = s.maxBufferedBytes := by
  unfold Stream.retain at retained
  split at retained
  · cases retained
    rfl
  · split at retained
    · contradiction
    · split at retained
      · contradiction
      · rename_i additions cursor _
        dsimp only at retained
        generalize (if cursor < fragmentOffset + fragment.length then
            additions ++ [(cursor, slice fragment (cursor - fragmentOffset)
              (fragmentOffset + fragment.length - cursor))]
          else additions) = all at retained
        split at retained
        · contradiction
        · cases retained
          rfl

theorem maxBufferedBytes_receive {s after : Stream}
    (accepted : s.receive frame.offset frame.data frame.fin = .ok after) :
    after.maxBufferedBytes = s.maxBufferedBytes := by
  have finish : ∀ (kept : Stream) (endOffset : Nat),
      (kept.finish frame.fin endOffset).maxBufferedBytes = kept.maxBufferedBytes := by
    intro kept endOffset
    unfold Stream.finish
    split
    · rfl
    · rfl
  obtain ⟨_, _, kept, same, cases⟩ := receive_cases accepted
  rw [same, finish]
  rcases cases with ⟨_, same⟩ | ⟨_, _, retained⟩ | ⟨_, retained⟩
  · rw [same]
  · exact maxBufferedBytes_retain retained
  · exact maxBufferedBytes_retain retained

theorem maxBufferedBytes_readFragments (walk : List Fragment) (s : Stream) (out : Bytes) :
    (Stream.readFragments walk s out).1.maxBufferedBytes = s.maxBufferedBytes := by
  induction walk generalizing s out with
  | nil => rfl
  | cons first rest ih =>
    rw [Stream.readFragments]
    split
    · exact ih _ _
    · split
      · rfl
      · dsimp only
        split
        · rfl
        · exact ih _ _

theorem ReassemblyRun.maxBufferedBytes_execute (run : ReassemblyRun) (calls : List StreamCall) :
    (run.execute calls).stream.maxBufferedBytes = run.stream.maxBufferedBytes := by
  induction calls generalizing run with
  | nil => rfl
  | cons call rest ih =>
    refine (ih (run.step call)).trans ?_
    cases call with
    | readContiguous => exact maxBufferedBytes_readFragments _ _ _
    | receive frame =>
      unfold step
      dsimp only
      split
      · rename_i accepted
        exact maxBufferedBytes_receive accepted
      · rfl

/-- Complete is a stream whose FIN has come and of which all is read. -/
theorem Reassembled.isReceiveComplete_iff (reassembled : Reassembled content run)
    (pieces : ∀ frame ∈ run.accepted, PieceOf content frame.offset frame.data) :
    run.stream.isReceiveComplete = true ↔
      ∃ frame ∈ run.accepted, frame.fin = true ∧ run.out = content.take (stop frame.piece) := by
  unfold Stream.isReceiveComplete
  rw [Bool.and_eq_true, decide_eq_true_eq]
  constructor
  · rintro ⟨finished, read⟩
    obtain ⟨frame, member, fin⟩ := reassembled.fin.mp finished
    have before := (reassembled.ends finished).1
    refine ⟨frame, member, fin, ?_⟩
    rw [reassembled.final frame member fin, reassembled.out, le_antisymm before read]
  · rintro ⟨frame, member, fin, read⟩
    have within : stop frame.piece ≤ content.length := (pieces frame member).within
    have length := congrArg List.length (reassembled.out.symm.trans read)
    rw [length_take, length_take, min_eq_left reassembled.inside, min_eq_left within]
      at length
    exact ⟨reassembled.fin.mpr ⟨frame, member, fin⟩,
      by rw [← reassembled.final frame member fin, length]⟩

theorem stream_reassembles (content : Bytes) (maxBufferedBytes maxFragments : Nat)
    (calls : List StreamCall) (run : ReassemblyRun)
    (ran : run = (ReassemblyRun.start maxBufferedBytes maxFragments).execute calls)
    (pieces : ∀ frame ∈ run.accepted, PieceOf content frame.offset frame.data) :
    run.out = content.take run.stream.readOffset ∧ run.out.length = run.stream.readOffset ∧
    (∀ fragment ∈ run.stream.fragments.entries,
      fragment.2 ≠ [] ∧ run.stream.readOffset ≤ fragment.1) ∧
    (run.stream.fragments.entries.Pairwise fun left right => stop left ≤ right.1) ∧
    run.stream.bufferedBytes = run.stream.fragments.total List.length ∧
    run.stream.bufferedBytes ≤ maxBufferedBytes ∧
    ((run.step .readContiguous).out =
        content.take (run.step .readContiguous).stream.readOffset ∧
      ¬ run.Received (run.step .readContiguous).stream.readOffset) ∧
    (run.stream.isReceiveComplete = true ↔
      ∃ frame ∈ run.accepted, frame.fin = true ∧ run.out = content.take (stop frame.piece)) ∧
    ∀ frame message, run.stream.receive frame.offset frame.data frame.fin = .error message →
      run.step (.receive frame) = run := by
  have reassembled : Reassembled content run := by
    rw [ran] at pieces ⊢
    exact (Reassembled.start content maxBufferedBytes maxFragments).execute calls pieces
  have budget : run.stream.maxBufferedBytes = maxBufferedBytes := by
    rw [ran, ReassemblyRun.maxBufferedBytes_execute]
    rfl
  have stored := reassembled.stored
  obtain ⟨next, contiguous⟩ := reassembled.readContiguous
  refine ⟨reassembled.out, ?_, ?_, stored.separate.pairwise, stored.buffered, ?_,
    ⟨next.out, contiguous⟩, reassembled.isReceiveComplete_iff pieces, ?_⟩
  · rw [reassembled.out, length_take, min_eq_left reassembled.inside]
  · exact fun fragment member => ⟨stored.separate.nonempty fragment member,
      stored.above fragment member⟩
  · exact budget ▸ stored.budget
  · intro frame message refused
    rw [ReassemblyRun.step, refused]

/-- Three overlapping frames out of order, then a read. -/
def overlappingCalls : List StreamCall :=
  [.receive ⟨4, [14, 15, 16], true⟩, .receive ⟨2, [12, 13, 14], false⟩,
    .receive ⟨0, [10, 11, 12], false⟩, .readContiguous]

theorem stream_reassembles_overlapping :
    let run := (ReassemblyRun.start 64 8).execute overlappingCalls
    run.stream.isReceiveComplete = true ∧ run.out = [10, 11, 12, 13, 14, 15, 16] ∧
      (run.stream.isReceiveComplete = true ↔ ∃ frame ∈ run.accepted, frame.fin = true ∧
        run.out = [10, 11, 12, 13, 14, 15, 16].take (stop frame.piece)) :=
  have pieces : ∀ frame ∈ ((ReassemblyRun.start 64 8).execute overlappingCalls).accepted,
      PieceOf [10, 11, 12, 13, 14, 15, 16] frame.offset frame.data := by
    intro frame member
    have cases : frame = ⟨4, [14, 15, 16], true⟩ ∨ frame = ⟨2, [12, 13, 14], false⟩ ∨
        frame = ⟨0, [10, 11, 12], false⟩ := by
      have listed : ((ReassemblyRun.start 64 8).execute overlappingCalls).accepted =
        [⟨4, [14, 15, 16], true⟩, ⟨2, [12, 13, 14], false⟩, ⟨0, [10, 11, 12], false⟩] := by decide
      simpa [listed] using member
    rcases cases with rfl | rfl | rfl <;> exact ⟨by decide, by decide⟩
  ⟨by decide, by decide,
    (stream_reassembles [10, 11, 12, 13, 14, 15, 16] 64 8 overlappingCalls _ rfl
      pieces).2.2.2.2.2.2.2.1⟩

end SwStack.Quic
