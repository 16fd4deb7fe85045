import SwStack.Quic.Ledger

/-! What retirement guarantees about the tables: a retired stream has no entry anywhere,
and every change keeps it that way. -/
namespace SwStack.Quic

open SwStack.Lib

namespace SendStream

/-- What the acknowledgement of a frame changes in the stream `streamId`. -/
def answered (streamId : Nat) (stream : SendStream) : Frame → SendStream
  | .stream target offset data fin =>
    if target = streamId then
      { stream.acknowledgeRange offset data.length with finAcked := stream.finAcked || fin }
    else stream
  | .resetStream target .. | .resetStreamAt target .. =>
    if target = streamId then { stream with resetAcked := true } else stream
  | _ => stream

/-- Everything of a stream but what acknowledgement changes. -/
structure SameSent (before after : SendStream) : Prop where
  buffer : after.buffer = before.buffer
  bufferOffset : after.bufferOffset = before.bufferOffset
  nextOffset : after.nextOffset = before.nextOffset
  finQueued : after.finQueued = before.finQueued
  finSent : after.finSent = before.finSent
  resetQueued : after.resetQueued = before.resetQueued
  resetAt : after.resetAt = before.resetAt
  resetReliableSize : after.resetReliableSize = before.resetReliableSize
  peerCreditPending : after.peerCreditPending = before.peerCreditPending

theorem SameSent.refl (stream : SendStream) : SameSent stream stream := by
  constructor <;> rfl

theorem SameSent.trans (left : SameSent first second)
    (right : SameSent second third) : SameSent first third :=
  { buffer := right.buffer.trans left.buffer
    bufferOffset := right.bufferOffset.trans left.bufferOffset
    nextOffset := right.nextOffset.trans left.nextOffset
    finQueued := right.finQueued.trans left.finQueued
    finSent := right.finSent.trans left.finSent
    resetQueued := right.resetQueued.trans left.resetQueued
    resetAt := right.resetAt.trans left.resetAt
    resetReliableSize := right.resetReliableSize.trans left.resetReliableSize
    peerCreditPending := right.peerCreditPending.trans left.peerCreditPending }

theorem acknowledgeRange_same (stream : SendStream) (offset length : Nat) :
    SameSent stream (stream.acknowledgeRange offset length) ∧
      (stream.acknowledgeRange offset length).finAcked = stream.finAcked ∧
      (stream.acknowledgeRange offset length).resetAcked = stream.resetAcked := by
  unfold acknowledgeRange
  split
  · exact ⟨.refl stream, rfl, rfl⟩
  · exact ⟨by constructor <;> rfl, rfl, rfl⟩

theorem answered_same (streamId : Nat) (stream : SendStream) (frame : Frame) :
    SameSent stream (stream.answered streamId frame) := by
  unfold answered
  split
  · rename_i target offset data fin
    split
    · obtain ⟨same, -⟩ := acknowledgeRange_same stream offset data.length
      exact ⟨same.buffer, same.bufferOffset, same.nextOffset, same.finQueued, same.finSent,
        same.resetQueued, same.resetAt, same.resetReliableSize, same.peerCreditPending⟩
    · exact .refl stream
  · split
    · constructor <;> rfl
    · exact .refl stream
  · split
    · constructor <;> rfl
    · exact .refl stream
  · exact .refl stream

theorem foldl_answered_same (streamId : Nat) (frames : List Frame) (stream : SendStream) :
    SameSent stream (frames.foldl (answered streamId) stream) := by
  induction frames generalizing stream with
  | nil => exact .refl stream
  | cons frame rest ih => exact (answered_same streamId stream frame).trans (ih _)

end SendStream

namespace Connection

theorem find?_acknowledgeFrame (sendStreams : SortedMap Nat SendStream) (frame : Frame)
    (streamId : Nat) :
    (acknowledgeFrame sendStreams frame).find? streamId =
      (sendStreams.find? streamId).map fun stream => stream.answered streamId frame := by
  have updated (target : Nat) (change : SendStream → SendStream) {held : SendStream}
      (found : sendStreams.find? target = some held) :
      (sendStreams.insert target (change held)).find? streamId =
        (sendStreams.find? streamId).map fun stream =>
          if target = streamId then change stream else stream := by
    rw [SortedMap.find?_insert]
    by_cases same : target = streamId
    · simp [← same, found]
    · simp [same, Ne.symm same]
  have absent (target : Nat) (change : SendStream → SendStream)
      (missing : sendStreams.find? target = none) : sendStreams.find? streamId =
        (sendStreams.find? streamId).map fun stream =>
          if target = streamId then change stream else stream := by
    by_cases same : target = streamId
    · simp [← same, missing]
    · simp [same]
  cases frame with
  | stream target offset data fin =>
    have finAcked := fun stream : SendStream =>
      (SendStream.acknowledgeRange_same stream offset data.length).2.1
    simp only [acknowledgeFrame, SendStream.answered, finAcked]
    split
    · rename_i held found
      exact updated target (fun stream => { stream.acknowledgeRange offset data.length with
        finAcked := stream.finAcked || fin }) found
    · rename_i missing
      exact absent target _ missing
  | resetStream target errorCode finalSize =>
    simp only [acknowledgeFrame, SendStream.answered]
    split
    · rename_i held found
      exact updated target (fun stream => { stream with resetAcked := true }) found
    · rename_i missing
      exact absent target _ missing
  | resetStreamAt target errorCode finalSize reliableSize =>
    simp only [acknowledgeFrame, SendStream.answered]
    split
    · rename_i held found
      exact updated target (fun stream => { stream with resetAcked := true }) found
    · rename_i missing
      exact absent target _ missing
  | _ => simp [acknowledgeFrame, SendStream.answered]

theorem find?_foldl_acknowledgeFrame (frames : List Frame) (sendStreams : SortedMap Nat SendStream)
    (streamId : Nat) :
    (frames.foldl acknowledgeFrame sendStreams).find? streamId =
      (sendStreams.find? streamId).map fun stream =>
        frames.foldl (SendStream.answered streamId) stream := by
  induction frames generalizing sendStreams with
  | nil => simp
  | cons frame rest ih =>
    rw [List.foldl_cons, ih, find?_acknowledgeFrame, Option.map_map]
    rfl

@[simp] theorem setSpace_spaces (c : Connection) (level other : Level) (space : Space) :
    (c.setSpace level space).spaces other = if other = level then space else c.spaces other :=
  Function.update_apply _ _ _ _

variable {c d : Connection}

theorem isRetired_congr (role : d.setup.role = c.setup.role)
    (retired : d.retiredPeerBidiRanges = c.retiredPeerBidiRanges) (streamId : Nat) :
    d.isRetiredPeerBidirectional streamId = c.isRetiredPeerBidirectional streamId := by
  simp only [isRetiredPeerBidirectional, isPeerInitiatedBidirectional, locallyInitiated, role,
    retired]

theorem isPeerInitiated_congr (role : d.setup.role = c.setup.role) (streamId : Nat) :
    d.isPeerInitiatedBidirectional streamId = c.isPeerInitiatedBidirectional streamId := by
  simp only [isPeerInitiatedBidirectional, locallyInitiated, role]

theorem isRetired_iff (separated : RangeMap.Separated 1 c.retiredPeerBidiRanges) (streamId : Nat) :
    c.isRetiredPeerBidirectional streamId = true ↔
      c.isPeerInitiatedBidirectional streamId = true ∧
        RangeMap.Covers 1 c.retiredPeerBidiRanges (streamNumber streamId) := by
  rw [RangeMap.covers_iff_floor? separated]
  unfold isRetiredPeerBidirectional
  cases c.retiredPeerBidiRanges.floor? (streamNumber streamId) with
  | none => simp
  | some range => simp

theorem peerBidirectional_unique (leftPeer : c.isPeerInitiatedBidirectional left = true)
    (rightPeer : c.isPeerInitiatedBidirectional right = true)
    (same : streamNumber left = streamNumber right) : left = right := by
  unfold isPeerInitiatedBidirectional locallyInitiated unidirectional at leftPeer rightPeer
  unfold streamNumber at same
  cases role : c.setup.role <;> simp [role] at leftPeer rightPeer <;> omega

/-- A retired stream has no entry anywhere, and only peer streams are released. -/
structure Retirement (c : Connection) : Prop where
  separated : RangeMap.Separated 1 c.retiredPeerBidiRanges
  tables : ∀ streamId, c.isRetiredPeerBidirectional streamId = true → c.receive.Lacks streamId
  sends : ∀ streamId stream, c.sendStreams.find? streamId = some stream →
    c.isRetiredPeerBidirectional streamId = false
  released : ∀ streamId stream, c.sendStreams.find? streamId = some stream →
    stream.peerCreditPending = true → c.isPeerInitiatedBidirectional streamId = true

theorem Retirement.changeSends (retirement : Retirement c) (role : d.setup.role = c.setup.role)
    (retired : d.retiredPeerBidiRanges = c.retiredPeerBidiRanges)
    (receive : d.receive = c.receive)
    (sends : ∀ streamId stream, d.sendStreams.find? streamId = some stream →
      c.isRetiredPeerBidirectional streamId = false ∧
        (stream.peerCreditPending = true → c.isPeerInitiatedBidirectional streamId = true)) :
    Retirement d :=
  { separated := retired ▸ retirement.separated
    tables := fun streamId gone => receive ▸
      retirement.tables streamId (isRetired_congr role retired streamId ▸ gone)
    sends := fun streamId stream found =>
      (isRetired_congr role retired streamId).trans (sends streamId stream found).1
    released := fun streamId stream found pending =>
      (isPeerInitiated_congr role streamId).trans ((sends streamId stream found).2 pending) }

theorem Retirement.keepSends (retirement : Retirement c) (role : d.setup.role = c.setup.role)
    (retired : d.retiredPeerBidiRanges = c.retiredPeerBidiRanges) (receive : d.receive = c.receive)
    (sends : d.sendStreams = c.sendStreams) : Retirement d :=
  retirement.changeSends role retired receive fun streamId stream found =>
    ⟨retirement.sends streamId stream (sends ▸ found),
      retirement.released streamId stream (sends ▸ found)⟩

theorem Retirement.setSend (retirement : Retirement c) (role : d.setup.role = c.setup.role)
    (retired : d.retiredPeerBidiRanges = c.retiredPeerBidiRanges) (receive : d.receive = c.receive)
    (sends : d.sendStreams = c.sendStreams.insert streamId stream)
    (live : c.isRetiredPeerBidirectional streamId = false)
    (released : stream.peerCreditPending = true → c.isPeerInitiatedBidirectional streamId = true) :
    Retirement d := by
  refine retirement.changeSends role retired receive fun other found held => ?_
  rw [sends, SortedMap.find?_insert] at held
  split at held
  · rename_i same
    cases held
    exact same ▸ ⟨live, released⟩
  · exact ⟨retirement.sends other found held, retirement.released other found held⟩

theorem Retirement.sendStream_released (retirement : Retirement c)
    (pending : (c.sendStream streamId).peerCreditPending = true) :
    c.isPeerInitiatedBidirectional streamId = true := by
  unfold sendStream at pending
  cases found : c.sendStreams.find? streamId with
  | none => simp [found, SendStream.empty] at pending
  | some stream => exact retirement.released streamId stream found (by simpa [found] using pending)

/-- The ids of the tables change at most at `streamId`, which is not retired. -/
theorem Retirement.receive (retirement : Retirement c)
    (live : c.isRetiredPeerBidirectional streamId = false) (only : ReceiveOnly streamId c d) :
    Retirement d := by
  have role : d.setup.role = c.setup.role := congrArg Ledger.role only.ledger
  have retired : d.retiredPeerBidiRanges = c.retiredPeerBidiRanges :=
    congrArg Ledger.retired only.ledger
  have sends : d.sendStreams = c.sendStreams := congrArg Ledger.sendStreams only.ledger
  constructor
  · exact retired ▸ retirement.separated
  · intro other gone
    rw [isRetired_congr role retired] at gone
    have different : other ≠ streamId := by
      rintro rfl
      rw [live] at gone
      contradiction
    exact (retirement.tables other gone).transfer only.receive different
  · intro other stream found
    rw [isRetired_congr role retired]
    exact retirement.sends other stream (sends ▸ found)
  · intro other stream found pending
    rw [isPeerInitiated_congr role]
    exact retirement.released other stream (sends ▸ found) pending

theorem grantPeerStream_same (c : Connection) :
    c.grantPeerStream.setup.role = c.setup.role ∧
      c.grantPeerStream.retiredPeerBidiRanges = c.retiredPeerBidiRanges ∧
      c.grantPeerStream.sendStreams = c.sendStreams ∧ c.grantPeerStream.receive = c.receive := by
  unfold grantPeerStream
  split <;> exact ⟨rfl, rfl, rfl, rfl⟩

theorem retireStream_role (c : Connection) (streamId : Nat) :
    (c.retireStream streamId).setup.role = c.setup.role :=
  (grantPeerStream_same _).1

theorem retireStream_ranges (c : Connection) (streamId : Nat) :
    (c.retireStream streamId).retiredPeerBidiRanges =
      RangeMap.add 1 c.retiredPeerBidiRanges (streamNumber streamId) (streamNumber streamId) :=
  (grantPeerStream_same _).2.1

theorem retireStream_sendStreams (c : Connection) (streamId : Nat) :
    (c.retireStream streamId).sendStreams = c.sendStreams.erase streamId :=
  (grantPeerStream_same _).2.2.1

theorem retireStream_tables (c : Connection) (streamId : Nat) :
    (c.retireStream streamId).receive =
      { streams := c.receive.streams.erase streamId
        streamFlow := c.receive.streamFlow.erase streamId
        peerStreamMaxData := c.receive.peerStreamMaxData.erase streamId
        resetStreams := c.receive.resetStreams.erase streamId
        pendingReliableResets := c.receive.pendingReliableResets.erase streamId
        streamFinalSize := c.receive.streamFinalSize.erase streamId } :=
  (grantPeerStream_same _).2.2.2

theorem retireStream_isRetired (retirement : Retirement c)
    (peer : c.isPeerInitiatedBidirectional streamId = true) (other : Nat) :
    (c.retireStream streamId).isRetiredPeerBidirectional other = true ↔
      c.isRetiredPeerBidirectional other = true ∨ other = streamId := by
  have proper : streamNumber streamId < streamNumber streamId + 1 := Nat.lt_succ_self _
  have separated := retirement.separated.add proper
  rw [isRetired_iff (retireStream_ranges c streamId ▸ separated),
    isRetired_iff retirement.separated, retireStream_ranges, RangeMap.covers_add retirement.separated proper,
    isPeerInitiated_congr (retireStream_role c streamId)]
  constructor
  · rintro ⟨otherPeer, covered | inside⟩
    · exact .inl ⟨otherPeer, covered⟩
    · exact .inr (peerBidirectional_unique otherPeer peer (by omega))
  · rintro (⟨otherPeer, covered⟩ | rfl)
    · exact ⟨otherPeer, .inl covered⟩
    · exact ⟨peer, .inr ⟨le_rfl, proper⟩⟩

theorem Retirement.retire (retirement : Retirement c)
    (peer : c.isPeerInitiatedBidirectional streamId = true) :
    Retirement (c.retireStream streamId) := by
  have erased : ∀ {other stream}, (c.sendStreams.erase streamId).find? other = some stream →
      other ≠ streamId ∧ c.sendStreams.find? other = some stream := by
    intro other stream found
    rw [SortedMap.find?_erase] at found
    split at found
    · contradiction
    · exact ⟨‹_›, found⟩
  constructor
  · rw [retireStream_ranges]
    exact retirement.separated.add (Nat.lt_succ_self _)
  · intro other gone
    rw [retireStream_tables]
    rcases (retireStream_isRetired retirement peer other).mp gone with gone | rfl
    · have lacks := retirement.tables other gone
      constructor <;> simp only [SortedMap.find?_erase, ite_eq_left_iff]
      · exact fun _ => lacks.streams
      · exact fun _ => lacks.streamFlow
      · exact fun _ => lacks.peerStreamMaxData
      · exact fun _ => lacks.resetStreams
      · exact fun _ => lacks.pendingReliableResets
      · exact fun _ => lacks.streamFinalSize
    · constructor <;> simp [SortedMap.find?_erase]
  · intro other stream found
    obtain ⟨different, held⟩ := erased (retireStream_sendStreams c streamId ▸ found)
    refine Bool.eq_false_iff.mpr fun gone => ?_
    rcases (retireStream_isRetired retirement peer other).mp gone with gone | same
    · rw [retirement.sends other stream held] at gone
      contradiction
    · exact different same
  · intro other stream found pending
    obtain ⟨-, held⟩ := erased (retireStream_sendStreams c streamId ▸ found)
    rw [isPeerInitiated_congr (retireStream_role c streamId)]
    exact retirement.released other stream held pending

theorem acknowledgePacket_sends (c : Connection) (level : Level) (packetNumber streamId : Nat) :
    ∃ frames : List Frame, (acknowledgePacket level c packetNumber).sendStreams.find? streamId =
      (c.sendStreams.find? streamId).map fun stream =>
        frames.foldl (SendStream.answered streamId) stream := by
  unfold acknowledgePacket
  split
  · exact ⟨[], by simp⟩
  · rename_i record _
    exact ⟨record.retransmittable, find?_foldl_acknowledgeFrame _ _ _⟩

theorem acknowledgePacket_same (c : Connection) (level : Level) (packetNumber : Nat) :
    (acknowledgePacket level c packetNumber).setup.role = c.setup.role ∧
      (acknowledgePacket level c packetNumber).retiredPeerBidiRanges = c.retiredPeerBidiRanges ∧
      (acknowledgePacket level c packetNumber).receive = c.receive := by
  unfold acknowledgePacket
  split <;> exact ⟨rfl, rfl, rfl⟩

theorem losePacket_same (state : Connection × LostSpan) (level : Level) (nowMs packetNumber : Nat) :
    (losePacket level nowMs state packetNumber).1.setup.role = state.1.setup.role ∧
      (losePacket level nowMs state packetNumber).1.retiredPeerBidiRanges =
        state.1.retiredPeerBidiRanges ∧
      (losePacket level nowMs state packetNumber).1.receive = state.1.receive ∧
      (losePacket level nowMs state packetNumber).1.sendStreams = state.1.sendStreams := by
  unfold losePacket
  split <;> exact ⟨rfl, rfl, rfl, rfl⟩

theorem append_peerCreditPending (stream : SendStream) (data : Bytes) (fin : Bool) :
    (stream.append data fin).peerCreditPending = stream.peerCreditPending := by
  unfold SendStream.append SendStream.compact
  split <;> rfl

/-- Staging leaves the connection alone or takes one chunk or a FIN from a stream. -/
theorem stageOneStreamFrame_cases (c : Connection) (streamId : Nat) :
    (c.stageOneStreamFrame streamId).1 = c ∨
      ∃ stream, c.sendStreams.find? streamId = some stream ∧
        ((∃ chunkSize, 0 < chunkSize ∧ chunkSize ≤ stream.remaining ∧
            (c.stageOneStreamFrame streamId).1 = c.stageChunk streamId stream chunkSize) ∨
          (stream.remaining = 0 ∧ stream.finQueued = true ∧ stream.finSent = false ∧
            (c.stageOneStreamFrame streamId).1 = c.stageFin streamId stream)) := by
  unfold stageOneStreamFrame
  cases found : c.sendStreams.find? streamId with
  | none => exact .inl rfl
  | some stream =>
    dsimp only
    split
    · rename_i unsent
      split
      · exact .inl rfl
      · rename_i admitted
        refine .inr ⟨stream, rfl, .inl ⟨_, ?_, ?_, rfl⟩⟩
        · have : 0 < kStreamChunkBytes := by decide
          omega
        · omega
    · rename_i drained
      split
      · rename_i fin
        simp only [Bool.and_eq_true, Bool.not_eq_true'] at fin
        exact .inr ⟨stream, rfl, .inr ⟨by omega, fin.1, fin.2, rfl⟩⟩
      · exact .inl rfl

theorem Retirement.change (retirement : Retirement c)
    (change : Change rules c d) : Retirement d := by
  cases change with
  | quiet quiet =>
    exact retirement.keepSends (congrArg Ledger.role quiet.ledger)
      (congrArg Ledger.retired quiet.ledger) quiet.receive
      (congrArg Ledger.sendStreams quiet.ledger)
  | receive live only _ => exact retirement.receive live only
  | enqueue _ => exact retirement.keepSends rfl rfl rfl rfl
  | shed _ _ => exact retirement.keepSends rfl rfl rfl rfl
  | touch live => exact retirement.setSend rfl rfl rfl rfl live retirement.sendStream_released
  | append live _ _ _ =>
    refine retirement.setSend rfl rfl rfl rfl live fun pending => ?_
    exact retirement.sendStream_released (append_peerCreditPending _ _ _ ▸ pending)
  | reset live _ _ => exact retirement.setSend rfl rfl rfl rfl live retirement.sendStream_released
  | resetAt live _ _ _ => exact retirement.setSend rfl rfl rfl rfl live retirement.sendStream_released
  | stage =>
    rename_i streamId
    rcases stageOneStreamFrame_cases c streamId with same |
      ⟨stream, found, ⟨chunkSize, -, -, staged⟩ | ⟨-, -, -, staged⟩⟩
    · rw [same]
      exact retirement
    all_goals
      rw [staged]
      exact retirement.setSend rfl rfl rfl rfl (retirement.sends streamId stream found)
        fun released => retirement.released streamId stream found released
  | transmit _ _ => exact retirement.keepSends rfl rfl rfl rfl
  | spend _ => exact retirement.keepSends rfl rfl rfl rfl
  | acknowledge _ =>
    rename_i level packetNumber _
    obtain ⟨role, retired, receive⟩ :=
      acknowledgePacket_same (c.untrack level packetNumber) level packetNumber
    refine retirement.changeSends role retired receive fun streamId stream found => ?_
    obtain ⟨frames, answered⟩ :=
      acknowledgePacket_sends (c.untrack level packetNumber) level packetNumber streamId
    rw [answered, Option.map_eq_some_iff] at found
    obtain ⟨held, present, rfl⟩ := found
    refine ⟨retirement.sends streamId held present, fun pending => ?_⟩
    rw [(SendStream.foldl_answered_same streamId frames held).peerCreditPending] at pending
    exact retirement.released streamId held present pending
  | lose =>
    rename_i level nowMs packetNumber span
    obtain ⟨role, retired, receive, sends⟩ :=
      losePacket_same (c.untrack level packetNumber, span) level nowMs packetNumber
    exact retirement.keepSends role retired receive sends
  | drop =>
    unfold dropLevelKeys
    split <;> exact retirement.keepSends rfl rfl rfl rfl
  | migrate _ => exact retirement.keepSends rfl rfl rfl rfl
  | release found peer =>
    exact retirement.setSend rfl rfl rfl rfl (retirement.sends _ _ found) fun _ => peer
  | retire found retires _ =>
    refine retirement.retire (retirement.released _ _ found ?_)
    simp only [Connection.retires, Bool.and_eq_true] at retires
    exact retires.1.1

theorem Retirement.changes (retirement : Retirement c)
    (changes : Changes rules c d) : Retirement d := by
  induction changes with
  | refl => exact retirement
  | tail _ change ih => exact ih.change change

theorem Retirement.start (setup : Setup) : Retirement (start setup) := by
  constructor
  · exact RangeMap.Separated.empty
  · intro streamId gone
    rw [isRetired_iff RangeMap.Separated.empty] at gone
    exact absurd gone.2 RangeMap.covers_empty
  · exact fun _ _ found => by cases found
  · exact fun _ _ found => by cases found

end Connection
end SwStack.Quic
