import SwStack.Quic.Endpoint

/-! Which bytes of a send stream are acknowledged, and that the range bookkeeping adds
exactly the bytes of an acknowledged frame. -/
namespace SwStack.Quic.SendStream

open SwStack.Lib SwStack.Lib.SortedMap

def Acked (stream : SendStream) (position : Nat) : Prop :=
  position < stream.contiguousAckedOffset ∨ RangeMap.Covers 0 stream.ackedRanges position

/-- The ranges are disjoint and do not touch each other. -/
def RangesApart (stream : SendStream) : Prop := RangeMap.Separated 0 stream.ackedRanges

theorem rangesApart_empty : SendStream.empty.RangesApart := RangeMap.Separated.empty

theorem not_acked_empty (position : Nat) : ¬ SendStream.empty.Acked position := by
  rintro (below | covered)
  · exact absurd below (Nat.not_lt_zero _)
  · exact RangeMap.covers_empty covered

/-- Dropping the ranges that touch the prefix changes no byte's standing. -/
theorem collapse_spec (contiguous : Nat)
    (separated : RangeMap.Separated 0 ranges) (held : ∀ range ∈ walk, range ∈ ranges.entries)
    (distinct : walk.Pairwise fun left right => left.1 < right.1) :
    RangeMap.Separated 0 (collapse walk contiguous ranges).2 ∧
      ∀ position,
        (position < (collapse walk contiguous ranges).1 ∨
            RangeMap.Covers 0 (collapse walk contiguous ranges).2 position) ↔
          (position < contiguous ∨ RangeMap.Covers 0 ranges position) := by
  induction walk generalizing contiguous ranges with
  | nil => exact ⟨separated, fun _ => Iff.rfl⟩
  | cons range rest ih =>
    obtain ⟨above, tail⟩ := List.pairwise_cons.mp distinct
    have member := held range List.mem_cons_self
    rw [collapse]
    split
    · exact ⟨separated, fun _ => Iff.rfl⟩
    · rename_i touches
      have kept : ∀ other ∈ rest, other ∈ (SortedMap.erase ranges range.1).entries := by
        intro other present
        exact mem_entries_erase.mpr
          ⟨held other (List.mem_cons_of_mem _ present), (above other present).ne'⟩
      obtain ⟨apart, same⟩ := ih (max contiguous range.2) (separated.erase range.1)
        kept tail
      refine ⟨apart, fun position => ?_⟩
      rw [same position, RangeMap.covers_erase_or member position]
      have nonempty := separated.proper range member
      constructor
      · rintro (below | covered)
        · by_cases early : position < contiguous
          · exact .inl early
          · exact .inr (.inr (by omega))
        · exact .inr (.inl covered)
      · rintro (below | covered | inside)
        · exact .inl (by omega)
        · exact .inr covered
        · exact .inl (by omega)

theorem acknowledgeRange_spec {stream : SendStream} (apart : stream.RangesApart)
    (offset length : Nat) :
    (stream.acknowledgeRange offset length).RangesApart ∧
      ∀ position, (stream.acknowledgeRange offset length).Acked position ↔
        stream.Acked position ∨ (offset ≤ position ∧ position < offset + length) := by
  unfold acknowledgeRange
  by_cases covered : length = 0 ∨ offset + length ≤ stream.contiguousAckedOffset
  · simp only [if_pos covered]
    refine ⟨apart, fun position => ⟨.inl, ?_⟩⟩
    rintro (acked | inside)
    · exact acked
    · exact .inl (by omega)
  · simp only [if_neg covered]
    have proper : max offset stream.contiguousAckedOffset < offset + length + 0 := by omega
    have added := apart.add proper
    obtain ⟨separated, same⟩ := collapse_spec stream.contiguousAckedOffset added
      (fun _ member => member) (SortedMap.ordered _)
    refine ⟨separated, fun position => ?_⟩
    refine (same position).trans ?_
    rw [RangeMap.covers_add apart proper, Acked]
    constructor
    · rintro (below | held | inside)
      · exact .inl (.inl below)
      · exact .inl (.inr held)
      · exact .inr (by omega)
    · rintro ((below | held) | inside)
      · exact .inl below
      · exact .inr (.inl held)
      · by_cases early : position < stream.contiguousAckedOffset
        · exact .inl early
        · exact .inr (.inr (by omega))

/-- The test the retransmission filter makes is exact. -/
theorem isRangeAcked_iff {stream : SendStream} (apart : stream.RangesApart) (offset length : Nat) :
    stream.isRangeAcked offset length = true ↔
      ∀ position, offset ≤ position → position < offset + length → stream.Acked position := by
  unfold isRangeAcked
  by_cases covered : length = 0 ∨ offset + length ≤ stream.contiguousAckedOffset
  · simp only [if_pos covered, true_iff]
    intro position above below
    exact .inl (by omega)
  · simp only [if_neg covered]
    obtain ⟨start, first⟩ : ∃ start, start = max offset stream.contiguousAckedOffset := ⟨_, rfl⟩
    rw [← first]
    constructor
    · intro tested position above below
      cases found : stream.ackedRanges.floor? start with
      | none => simp [found] at tested
      | some range =>
        obtain ⟨⟨member, reached⟩, -⟩ := floor?_eq_some_iff.mp found
        have reaches : offset + length ≤ range.2 := by simpa [found] using tested
        by_cases early : position < stream.contiguousAckedOffset
        · exact .inl early
        · exact .inr ⟨range, member, by omega, by omega⟩
    · intro every
      have open_ : ∀ position, start ≤ position → position < offset + length →
          RangeMap.Covers 0 stream.ackedRanges position := by
        intro position above below
        rcases every position (by omega) below with early | held
        · omega
        · exact held
      obtain ⟨range, found, inside⟩ := (RangeMap.covers_iff_floor? apart start).mp
        (open_ start le_rfl (by omega))
      obtain ⟨⟨member, reached⟩, -⟩ := floor?_eq_some_iff.mp found
      simp only [found, decide_eq_true_eq]
      by_contra short
      obtain ⟨other, otherMember, from_, until_⟩ := open_ range.2 (by omega) (by omega)
      rcases Nat.lt_trichotomy range.1 other.1 with lower | same | higher
      · have := apart.apart range member other otherMember lower
        omega
      · rw [entry_unique member otherMember same] at until_
        omega
      · have := apart.apart other otherMember range member higher
        have := apart.proper range member
        omega

end SwStack.Quic.SendStream

/-! The changes an endpoint is made of. A call of the driver or the application is a chain
of these, so an invariant is checked once for each kind of change instead of in every
branch of every call. -/
namespace SwStack.Quic

open SwStack.Lib

/-- The part of a connection that sending, acknowledgement and retirement work on. -/
structure Ledger where
  role : Role
  localParams : TransportParameters
  plaintextInitialTx : Bool
  sendStreams : SortedMap Nat SendStream
  retired : RangeMap
  localMaxStreamsBidi : Nat
  bytesInFlight : Nat
  pending : Level → List Frame
  sent : Level → SortedMap Nat SentRecord
  tracked : Level → SortedMap Nat SentPacket
  nextTxPn : Level → Nat

/-- Equal entries for every stream but one. -/
structure Tables.AgreeExcept (streamId : Nat) (left right : Tables) : Prop where
  streams : ∀ other ≠ streamId, left.streams.find? other = right.streams.find? other
  streamFlow : ∀ other ≠ streamId, left.streamFlow.find? other = right.streamFlow.find? other
  peerStreamMaxData : ∀ other ≠ streamId,
    left.peerStreamMaxData.find? other = right.peerStreamMaxData.find? other
  resetStreams : ∀ other ≠ streamId, left.resetStreams.find? other = right.resetStreams.find? other
  pendingReliableResets : ∀ other ≠ streamId,
    left.pendingReliableResets.find? other = right.pendingReliableResets.find? other
  streamFinalSize : ∀ other ≠ streamId,
    left.streamFinalSize.find? other = right.streamFinalSize.find? other

/-- No entry for a stream. -/
structure Tables.Lacks (tables : Tables) (streamId : Nat) : Prop where
  streams : tables.streams.find? streamId = none
  streamFlow : tables.streamFlow.find? streamId = none
  peerStreamMaxData : tables.peerStreamMaxData.find? streamId = none
  resetStreams : tables.resetStreams.find? streamId = none
  pendingReliableResets : tables.pendingReliableResets.find? streamId = none
  streamFinalSize : tables.streamFinalSize.find? streamId = none

theorem Tables.AgreeExcept.refl (streamId : Nat) (tables : Tables) :
    tables.AgreeExcept streamId tables := by
  constructor <;> exact fun _ _ => rfl

theorem Tables.AgreeExcept.trans {first second third : Tables}
    (left : first.AgreeExcept streamId second) (right : second.AgreeExcept streamId third) :
    first.AgreeExcept streamId third :=
  { streams := fun other different =>
      (left.streams other different).trans (right.streams other different)
    streamFlow := fun other different =>
      (left.streamFlow other different).trans (right.streamFlow other different)
    peerStreamMaxData := fun other different =>
      (left.peerStreamMaxData other different).trans (right.peerStreamMaxData other different)
    resetStreams := fun other different =>
      (left.resetStreams other different).trans (right.resetStreams other different)
    pendingReliableResets := fun other different =>
      (left.pendingReliableResets other different).trans
        (right.pendingReliableResets other different)
    streamFinalSize := fun other different =>
      (left.streamFinalSize other different).trans (right.streamFinalSize other different) }

theorem Tables.Lacks.transfer {left right : Tables}
    (agree : left.AgreeExcept streamId right) (different : other ≠ streamId)
    (lacks : left.Lacks other) : right.Lacks other :=
  { streams := (agree.streams other different).symm.trans lacks.streams
    streamFlow := (agree.streamFlow other different).symm.trans lacks.streamFlow
    peerStreamMaxData :=
      (agree.peerStreamMaxData other different).symm.trans lacks.peerStreamMaxData
    resetStreams := (agree.resetStreams other different).symm.trans lacks.resetStreams
    pendingReliableResets :=
      (agree.pendingReliableResets other different).symm.trans lacks.pendingReliableResets
    streamFinalSize := (agree.streamFinalSize other different).symm.trans lacks.streamFinalSize }

namespace Connection

def ledger (c : Connection) : Ledger :=
  { role := c.setup.role, localParams := c.setup.localParams
    plaintextInitialTx := c.setup.plaintextInitialTx
    sendStreams := c.sendStreams, retired := c.retiredPeerBidiRanges
    localMaxStreamsBidi := c.streamLimits.localMaxStreamsBidi
    bytesInFlight := c.congestion.bytesInFlight
    pending := fun level => (c.spaces level).pendingFrames
    sent := fun level => (c.spaces level).sentPackets
    tracked := fun level => (c.spaces level).loss.sent
    nextTxPn := fun level => (c.spaces level).nextTxPn }

/-- Nothing a change works on differs, and no level loses its send keys. -/
structure Quiet (before after : Connection) : Prop where
  ledger : after.ledger = before.ledger
  receive : after.receive = before.receive
  credit : after.connectionFlow =
    { before.connectionFlow with peerMaxData := after.connectionFlow.peerMaxData }
  armed : ∀ level, before.levelCanSend level = true → after.levelCanSend level = true

theorem Quiet.refl (c : Connection) : Quiet c c := ⟨rfl, rfl, rfl, fun _ armed => armed⟩

theorem Quiet.trans (left : Quiet first second)
    (right : Quiet second third) : Quiet first third := by
  refine ⟨right.ledger.trans left.ledger, right.receive.trans left.receive, ?_,
    fun level armed => right.armed level (left.armed level armed)⟩
  rw [right.credit, left.credit]

/-- Only the receive tables of one stream differ. -/
structure ReceiveOnly (streamId : Nat) (before after : Connection) : Prop where
  ledger : after.ledger = before.ledger
  receive : before.receive.AgreeExcept streamId after.receive
  armed : ∀ level, before.levelCanSend level = true → after.levelCanSend level = true

def withPending (c : Connection) (level : Level) (frames : List Frame) : Connection :=
  c.setSpace level { c.spaces level with pendingFrames := frames }

/-- A packet leaves both the record map and loss recovery. -/
def untrack (c : Connection) (level : Level) (packetNumber : Nat) : Connection :=
  c.setSpace level { c.spaces level with
    loss := { (c.spaces level).loss with sent := (c.spaces level).loss.sent.erase packetNumber } }

end Connection

/-- What a run permits of the changes that depend on what happened outside: the data it
appends, the send states it resets, the STREAM frames the driver queues itself, the frames
taken for acknowledged, the receive tables that are left, the levels discarded, the moves to
a new path and the streams retired. -/
structure Rules where
  append : Nat → Bytes → Bool → Prop
  reset : SendStream → Prop := fun _ => True
  queue : Frame → Prop
  acknowledged : Frame → Prop
  receive : Connection → Connection → Prop
  drop : Ledger → Level → Prop
  migrate : Ledger → Prop
  retire : SendStream → Prop

open Connection in
inductive Change (rules : Rules) : Connection → Connection → Prop where
  | quiet : Quiet c d → Change rules c d
  | receive : c.isRetiredPeerBidirectional streamId = false → ReceiveOnly streamId c d →
      rules.receive c d → Change rules c d
  | enqueue : (∀ frame ∈ frames, frame.isStream = true → rules.queue frame ∨
        ∃ entry ∈ (c.spaces level).sentPackets.entries, frame ∈ entry.2.retransmittable) →
      Change rules c (c.enqueueAll level frames)
  | shed : (∀ frame ∈ frames, frame ∈ (c.spaces level).pendingFrames) →
      (∀ frame ∈ (c.spaces level).pendingFrames, frame.isRetransmittable = true → frame ∈ frames) →
      Change rules c (c.withPending level frames)
  | touch : c.isRetiredPeerBidirectional streamId = false →
      Change rules c (c.setSendStream streamId (c.sendStream streamId))
  | append : c.isRetiredPeerBidirectional streamId = false →
      (c.sendStream streamId).finQueued = false → (c.sendStream streamId).resetQueued = false →
      rules.append streamId data fin →
      Change rules c (c.setSendStream streamId ((c.sendStream streamId).append data fin))
  | reset : c.isRetiredPeerBidirectional streamId = false →
      (c.sendStream streamId).resetQueued = false → rules.reset (c.sendStream streamId) →
      Change rules c ((c.abandonBuffer streamId (c.sendStream streamId))
        |>.removePendingSendFramesForStream streamId false)
  | resetAt : c.isRetiredPeerBidirectional streamId = false →
      (c.sendStream streamId).resetQueued = false →
      reliableSize ≤ (c.sendStream streamId).nextOffset → rules.reset (c.sendStream streamId) →
      Change rules c ((c.abandonBuffer streamId
          { c.sendStream streamId with resetAt := true, resetReliableSize := reliableSize })
        |>.removePendingSendFramesAfterReliableSize streamId reliableSize)
  | stage : Change rules c (c.stageOneStreamFrame streamId).1
  | transmit : c.levelCanSend level = true →
      frames.filter Frame.isRetransmittable =
        ((c.spaces level).pendingFrames.take count).filter Frame.isRetransmittable →
      Change rules c ((c.withPending level ((c.spaces level).pendingFrames.drop count)).trackPacket
        level frames nowMs size)
  | spend : c.levelCanSend level = true → Change rules c (c.spendPacketNumber level)
  | acknowledge : (∀ record, (c.spaces level).sentPackets.find? packetNumber = some record →
        ∀ frame ∈ record.retransmittable, rules.acknowledged frame) →
      Change rules c (acknowledgePacket level (c.untrack level packetNumber) packetNumber)
  | lose :
      Change rules c (losePacket level nowMs (c.untrack level packetNumber, span) packetNumber).1
  | drop : rules.drop c.ledger level → Change rules c (c.dropLevelKeys level)
  | migrate : rules.migrate c.ledger → Change rules c c.resetForNewPath
  | release : c.sendStreams.find? streamId = some stream →
      c.isPeerInitiatedBidirectional streamId = true →
      Change rules c (c.releasePending streamId)
  | retire : c.sendStreams.find? streamId = some stream → c.retires streamId stream = true →
      rules.retire stream → Change rules c (c.retireStream streamId)

abbrev Changes (rules : Rules) : Connection → Connection → Prop :=
  Relation.ReflTransGen (Change rules)

end SwStack.Quic
