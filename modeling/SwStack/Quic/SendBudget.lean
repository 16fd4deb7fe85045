import SwStack.Lib.MapWeight
import SwStack.Quic.Leaves

/-! The budget of stream data: what may happen to the send buffers, the counters and the limits
of a connection, and what stays true of them whatever happens. -/
namespace SwStack.Quic

open SwStack.Lib

/-- The largest limits a peer has announced. -/
structure AnnouncedLimits where
  maxData : Nat
  maxStreamData : Nat → Nat

/-- The unsent part of a buffer is within the buffer. -/
def SendStream.Compacted (stream : SendStream) : Prop := stream.bufferOffset ≤ stream.buffer.length

namespace SendView

def sendStream (view : SendView) (streamId : Nat) : SendStream :=
  (view.sendStreams.find? streamId).getD .empty

def initialStreamLimit (view : SendView) (streamId : Nat) : Nat :=
  (Connection.start view.setup).peerStreamSendLimit streamId

def streamLimit (view : SendView) (streamId : Nat) : Nat :=
  max (view.initialStreamLimit streamId) ((view.peerStreamMaxData.find? streamId).getD 0)

/-- A step that stages nothing: a buffer is rewritten, a stream is retired, with nothing unsent
if streams are drained first, or a limit is raised. -/
inductive Edit (announced : AnnouncedLimits) (drains : Prop) : SendView → SendView → Prop
  | rewrite {view : SendView} {streamId buffered : Nat} {after : SendStream} :
      after.nextOffset = (view.sendStream streamId).nextOffset →
      ((view.sendStream streamId).Compacted → after.Compacted) →
      buffered = view.bufferedStreamSendBytes + after.remaining -
        (view.sendStream streamId).remaining →
      Edit announced drains view { view with
        sendStreams := view.sendStreams.insert streamId after, bufferedStreamSendBytes := buffered }
  | retire {view : SendView} {streamId : Nat} {stream : SendStream} :
      view.sendStreams.find? streamId = some stream → (drains → stream.remaining = 0) →
      Edit announced drains view { view with
        sendStreams := view.sendStreams.erase streamId
        peerStreamMaxData := view.peerStreamMaxData.erase streamId }
  | maxData {view : SendView} {maximum : Nat} : maximum ≤ announced.maxData →
      Edit announced drains view { view with peerMaxData := max view.peerMaxData maximum }
  | maxStreamData {view : SendView} {streamId maximum : Nat} :
      maximum ≤ announced.maxStreamData streamId →
      Edit announced drains view { view with
        peerStreamMaxData := view.peerStreamMaxData.insert streamId
          (max ((view.peerStreamMaxData.find? streamId).getD 0) maximum) }

/-- A chunk of a buffer is staged, within the credit there is, or a FIN on its own. -/
inductive Stage : SendView → SendView → Prop
  | chunk {view : SendView} {streamId chunkSize : Nat} {before after : SendStream} :
      view.sendStreams.find? streamId = some before →
      after.nextOffset = before.nextOffset + chunkSize →
      after.remaining + chunkSize = before.remaining →
      (before.Compacted → after.Compacted) →
      (0 < chunkSize → after.nextOffset ≤ view.streamLimit streamId ∧
        view.totalStreamBytesSent + chunkSize ≤ view.peerMaxData) →
      Stage view { view with
        sendStreams := view.sendStreams.insert streamId after
        bufferedStreamSendBytes := view.bufferedStreamSendBytes - chunkSize
        totalStreamBytesSent := view.totalStreamBytesSent + chunkSize }

/-- The counter covers the buffers, and agrees with them if streams are drained before they are
retired; no limit is passed. -/
structure Within (announced : AnnouncedLimits) (drains : Prop) (view : SendView) : Prop where
  compacted : ∀ streamId, (view.sendStream streamId).Compacted
  covered : view.sendStreams.total SendStream.remaining ≤ view.bufferedStreamSendBytes
  counted : drains →
    view.bufferedStreamSendBytes = view.sendStreams.total SendStream.remaining
  offsets : ∀ streamId, (view.sendStream streamId).nextOffset ≤ view.streamLimit streamId
  credit : view.totalStreamBytesSent ≤ view.peerMaxData
  maxData : view.peerMaxData ≤ announced.maxData
  maxStreamData : ∀ streamId, view.streamLimit streamId ≤ announced.maxStreamData streamId

variable {announced : AnnouncedLimits} {drains : Prop} {view before after : SendView}

theorem sendStream_of_found (found : view.sendStreams.find? streamId = some stream) :
    view.sendStream streamId = stream := by
  unfold sendStream
  rw [found]
  rfl

theorem sendStream_insert (view : SendView) (streamId other : Nat) (stream : SendStream)
    (buffered total : Nat) :
    ({ view with
        sendStreams := view.sendStreams.insert streamId stream
        bufferedStreamSendBytes := buffered, totalStreamBytesSent := total }).sendStream other =
      if other = streamId then stream else view.sendStream other := by
  unfold sendStream
  rw [SortedMap.find?_insert]
  split <;> rfl

theorem total_rewrite (view : SendView) (streamId : Nat) (after : SendStream) :
    (view.sendStreams.insert streamId after).total SendStream.remaining +
        (view.sendStream streamId).remaining =
      view.sendStreams.total SendStream.remaining + after.remaining := by
  unfold sendStream
  cases found : view.sendStreams.find? streamId with
  | none =>
    rw [SortedMap.total_insert _ _ found]
    exact Nat.add_zero _
  | some stream => exact SortedMap.total_update _ _ found

theorem Within.rewrite (within : Within announced drains before) {streamId buffered : Nat}
    {stream : SendStream}
    (sameOffset : stream.nextOffset = (before.sendStream streamId).nextOffset)
    (compacts : (before.sendStream streamId).Compacted → stream.Compacted)
    (counted : buffered = before.bufferedStreamSendBytes + stream.remaining -
      (before.sendStream streamId).remaining) :
    Within announced drains { before with
      sendStreams := before.sendStreams.insert streamId stream
      bufferedStreamSendBytes := buffered } := by
  have total := total_rewrite before streamId stream
  refine ⟨fun other => ?_, ?_, fun drained => ?_, fun other => ?_, within.credit, within.maxData,
    within.maxStreamData⟩
  · have compacted := within.compacted other
    rw [sendStream_insert]
    split
    · rename_i here
      exact compacts (here ▸ compacted)
    · exact compacted
  · have covered := within.covered
    rw [counted]
    dsimp only
    omega
  · rw [counted, within.counted drained]
    dsimp only
    omega
  · have offset := within.offsets other
    rw [sendStream_insert]
    split
    · rename_i here
      rw [sameOffset, ← here]
      exact offset
    · exact offset

theorem Within.retire (within : Within announced drains before)
    (found : before.sendStreams.find? streamId = some stream)
    (drained : drains → stream.remaining = 0) :
    Within announced drains { before with
      sendStreams := before.sendStreams.erase streamId
      peerStreamMaxData := before.peerStreamMaxData.erase streamId } := by
  have total := SortedMap.total_erase SendStream.remaining found
  refine ⟨fun other => ?_, ?_, fun drains => ?_, fun other => ?_, within.credit, within.maxData,
    fun other => ?_⟩
  · have compacted := within.compacted other
    unfold sendStream at compacted ⊢
    dsimp only
    rw [SortedMap.find?_erase]
    split
    · exact le_rfl
    · exact compacted
  · have covered := within.covered
    dsimp only
    omega
  · have nothing := drained drains
    rw [within.counted drains]
    dsimp only
    omega
  · have offset := within.offsets other
    unfold sendStream streamLimit at offset ⊢
    dsimp only
    rw [SortedMap.find?_erase, SortedMap.find?_erase]
    split
    · exact Nat.zero_le _
    · exact offset
  · have announces := within.maxStreamData other
    unfold streamLimit at announces ⊢
    dsimp only
    rw [SortedMap.find?_erase]
    split
    · exact (max_le (le_max_left _ _) (Nat.zero_le _)).trans announces
    · exact announces

theorem Within.raise (within : Within announced drains before)
    (known : maximum ≤ announced.maxStreamData streamId) :
    Within announced drains { before with
      peerStreamMaxData := before.peerStreamMaxData.insert streamId
        (max ((before.peerStreamMaxData.find? streamId).getD 0) maximum) } := by
  have limit (other : Nat) : ({ before with
      peerStreamMaxData := before.peerStreamMaxData.insert streamId
        (max ((before.peerStreamMaxData.find? streamId).getD 0) maximum) }).streamLimit other =
      if other = streamId then max (before.streamLimit other) maximum
        else before.streamLimit other := by
    unfold streamLimit
    dsimp only
    rw [SortedMap.find?_insert]
    split
    · rename_i here
      rw [here]
      exact (max_assoc _ _ _).symm
    · rfl
  refine ⟨within.compacted, within.covered, within.counted, fun other => ?_, within.credit,
    within.maxData, fun other => ?_⟩
  · have offset := within.offsets other
    rw [limit]
    split
    · exact offset.trans (le_max_left _ _)
    · exact offset
  · have announces := within.maxStreamData other
    rw [limit]
    split
    · rename_i here
      exact max_le announces (here ▸ known)
    · exact announces

theorem Within.edit (within : Within announced drains before)
    (edit : Edit announced drains before after) : Within announced drains after := by
  cases edit with
  | rewrite sameOffset compacts counted => exact within.rewrite sameOffset compacts counted
  | retire found drained => exact within.retire found drained
  | maxData known =>
    exact { within with
      credit := within.credit.trans (le_max_left _ _), maxData := max_le within.maxData known }
  | maxStreamData known => exact within.raise known

theorem Within.stage (within : Within announced drains before) (stage : Stage before after) :
    Within announced drains after := by
  cases stage with
  | @chunk streamId chunkSize old new found grown shrunk compacts admitted =>
    have total := SortedMap.total_update SendStream.remaining new found
    have held : before.sendStream streamId = old := sendStream_of_found found
    refine ⟨fun other => ?_, ?_, fun drained => ?_, fun other => ?_, ?_, within.maxData,
      within.maxStreamData⟩
    · have compacted := within.compacted other
      rw [sendStream_insert]
      split
      · rename_i here
        rw [here, held] at compacted
        exact compacts compacted
      · exact compacted
    · have covered := within.covered
      dsimp only
      omega
    · rw [within.counted drained]
      dsimp only
      omega
    · have offset := within.offsets other
      rw [sendStream_insert]
      split
      · rename_i here
        rcases Nat.eq_zero_or_pos chunkSize with zero | positive
        · rw [grown, zero, ← held, ← here]
          exact offset
        · rw [here]
          exact (admitted positive).1
      · exact offset
    · rcases Nat.eq_zero_or_pos chunkSize with zero | positive
      · rw [zero]
        exact within.credit
      · exact (admitted positive).2

theorem Within.announce (within : Within announced drains view)
    (maxData : announced.maxData ≤ more.maxData)
    (maxStreamData : ∀ streamId, announced.maxStreamData streamId ≤ more.maxStreamData streamId) :
    Within more drains view :=
  { within with
    maxData := within.maxData.trans maxData
    maxStreamData := fun streamId =>
      (within.maxStreamData streamId).trans (maxStreamData streamId) }

abbrev Edits (announced : AnnouncedLimits) (drains : Prop) : SendView → SendView → Prop :=
  Relation.ReflTransGen (Edit announced drains)

abbrev Stages : SendView → SendView → Prop := Relation.ReflTransGen Stage

theorem Within.edits (within : Within announced drains before)
    (edits : Edits announced drains before after) : Within announced drains after := by
  induction edits with
  | refl => exact within
  | tail _ edit ih => exact ih.edit edit

theorem Within.stages (within : Within announced drains before) (stages : Stages before after) :
    Within announced drains after := by
  induction stages with
  | refl => exact within
  | tail _ stage ih => exact ih.stage stage

theorem Edits.setup (edits : Edits announced drains before after) :
    after.setup = before.setup := by
  induction edits with
  | refl => rfl
  | tail _ edit ih => cases edit <;> exact ih

theorem Stages.setup (stages : Stages before after) : after.setup = before.setup := by
  induction stages with
  | refl => rfl
  | tail _ stage ih =>
    cases stage
    exact ih

/-- The bytes staged between two states. -/
def staged (before after : SendView) : Nat :=
  SortedMap.growth SendStream.nextOffset before.sendStreams after.sendStreams

theorem Edits.staged (edits : Edits announced drains before after) :
    after.totalStreamBytesSent = before.totalStreamBytesSent ∧ staged before after = 0 := by
  suffices kept : after.totalStreamBytesSent = before.totalStreamBytesSent ∧ ∀ streamId,
      after.sendStreams.measureAt SendStream.nextOffset streamId ≤
        before.sendStreams.measureAt SendStream.nextOffset streamId from
    ⟨kept.1, SortedMap.growth_eq_zero kept.2⟩
  induction edits with
  | refl => exact ⟨rfl, fun _ => le_rfl⟩
  | @tail middle after _ edit ih =>
    obtain ⟨same, held⟩ := ih
    cases edit with
    | @rewrite streamId _ stream sameOffset _ _ =>
      refine ⟨same, fun other => ?_⟩
      have earlier := held other
      rw [SortedMap.measureAt_insert]
      split
      · rename_i here
        rw [sameOffset]
        refine le_trans (le_of_eq ?_) earlier
        unfold sendStream SortedMap.measureAt
        rw [here]
        cases middle.sendStreams.find? streamId <;> rfl
      · exact earlier
    | retire _ _ =>
      refine ⟨same, fun other => ?_⟩
      have earlier := held other
      rw [SortedMap.measureAt_erase]
      split
      · exact Nat.zero_le _
      · exact earlier
    | maxData _ => exact ⟨same, held⟩
    | maxStreamData _ => exact ⟨same, held⟩

theorem Stages.staged (stages : Stages before after) :
    after.totalStreamBytesSent = before.totalStreamBytesSent + staged before after := by
  suffices advanced : after.sendStreams.keys = before.sendStreams.keys ∧
      (∀ streamId, before.sendStreams.measureAt SendStream.nextOffset streamId ≤
        after.sendStreams.measureAt SendStream.nextOffset streamId) ∧
      after.totalStreamBytesSent + before.sendStreams.total SendStream.nextOffset =
        before.totalStreamBytesSent + after.sendStreams.total SendStream.nextOffset by
    obtain ⟨keys, grows, counted⟩ := advanced
    have total := SortedMap.total_add_growth keys grows
    unfold SendView.staged
    omega
  induction stages with
  | refl => exact ⟨rfl, fun _ => le_rfl, rfl⟩
  | @tail middle after _ stage ih =>
    obtain ⟨keys, grows, counted⟩ := ih
    cases stage with
    | @chunk streamId chunkSize old new found grown _ _ _ =>
      have total := SortedMap.total_update SendStream.nextOffset new found
      refine ⟨(SortedMap.keys_insert _ found).trans keys, fun other => ?_, ?_⟩
      · have earlier := grows other
        rw [SortedMap.measureAt_insert]
        split
        · rename_i here
          rw [here, SortedMap.measureAt_of_found found] at earlier
          rw [here, grown]
          exact earlier.trans (Nat.le_add_right _ _)
        · exact earlier
      · dsimp only
        omega

end SendView
end SwStack.Quic
