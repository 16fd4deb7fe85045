import SwStack.Quic.PacketAttempts
import SwStack.Quic.SendBudget
import SwStack.Quic.StreamCredit

/-! What a connection does to its stream data, call by call, is a chain of the steps that the
budget allows. -/
namespace SwStack.Quic

open SwStack.Lib SendView List

namespace Connection

variable {c d : Connection} {announced : AnnouncedLimits} {drains : Prop} {streamId : Nat}

theorem edits_same (same : d.sendView = c.sendView) :
    Edits announced drains c.sendView d.sendView := by
  rw [same]

theorem stages_same (same : d.sendView = c.sendView) : Stages c.sendView d.sendView := by
  rw [same]

theorem edit_rewrite {after : SendStream} {buffered : Nat}
    (sameOffset : after.nextOffset = (c.sendStream streamId).nextOffset)
    (compacts : (c.sendStream streamId).Compacted → after.Compacted)
    (counted : buffered = c.sending.bufferedStreamSendBytes + after.remaining -
      (c.sendStream streamId).remaining) :
    Edit announced drains c.sendView ({ c.setSendStream streamId after with
      sending.bufferedStreamSendBytes := buffered } : Connection).sendView := by
  have edit : Edit announced drains c.sendView { c.sendView with
      sendStreams := c.sendView.sendStreams.insert streamId after
      bufferedStreamSendBytes := buffered } := .rewrite sameOffset compacts counted
  exact edit

theorem edit_setSendStream {after : SendStream}
    (sameOffset : after.nextOffset = (c.sendStream streamId).nextOffset)
    (compacts : (c.sendStream streamId).Compacted → after.Compacted)
    (sameRemaining : after.remaining = (c.sendStream streamId).remaining) :
    Edit announced drains c.sendView (c.setSendStream streamId after).sendView :=
  edit_rewrite sameOffset compacts (by rw [sameRemaining, Nat.add_sub_cancel])

variable {stream : SendStream}

theorem append_counts (compacted : stream.Compacted) (data : Bytes) (fin : Bool) :
    (stream.append data fin).nextOffset = stream.nextOffset ∧
      (stream.append data fin).Compacted ∧
      (stream.append data fin).remaining = stream.remaining + data.length := by
  unfold SendStream.Compacted at compacted ⊢
  unfold SendStream.append SendStream.compact SendStream.remaining
  dsimp only
  split
  · refine ⟨rfl, Nat.zero_le _, ?_⟩
    dsimp only
    rw [length_append, length_drop]
    omega
  · refine ⟨rfl, ?_, ?_⟩
    · rw [length_append]
      omega
    · rw [length_append]
      omega

theorem edits_sendStreamData (compacted : ∀ streamId, (c.sendStream streamId).Compacted)
    (streamId : Nat) (data : Bytes) (fin : Bool) :
    Edits announced drains c.sendView (c.sendStreamData streamId data fin).1.sendView := by
  have validated := (Leaves.validateSendStreamState c streamId).sameSending
  unfold sendStreamData
  split
  · exact .refl
  rcases checked : c.validateSendStreamState streamId with ⟨d, _ | message⟩
  · rw [checked] at validated
    dsimp only at validated ⊢
    have streams : d.sendStreams = c.sendStreams := congrArg SendView.sendStreams validated
    split
    · exact edits_same validated
    split
    · exact edits_same validated
    · have held : d.sendStream streamId = c.sendStream streamId := by
        unfold sendStream
        rw [streams]
      have within : (d.sendStream streamId).Compacted := held ▸ compacted streamId
      obtain ⟨sameOffset, compacts, more⟩ := append_counts within data fin
      rw [← validated]
      exact .single (edit_rewrite sameOffset (fun _ => compacts) (by rw [more]; omega))
  · rw [checked] at validated
    exact edits_same validated

theorem edit_abandonBuffer (sameOffset : stream.nextOffset = (c.sendStream streamId).nextOffset)
    (sameRemaining : stream.remaining = (c.sendStream streamId).remaining) :
    Edit announced drains c.sendView (c.abandonBuffer streamId stream).sendView :=
  edit_rewrite sameOffset (fun _ => le_rfl) (by rw [sameRemaining]; rfl)

theorem edits_resetStream (c : Connection) (streamId errorCode : Nat) :
    Edits announced drains c.sendView (c.resetStream streamId errorCode).1.sendView := by
  have validated := (Leaves.validateSendStreamState c streamId).sameSending
  unfold resetStream
  split
  · exact .refl
  rcases checked : c.validateSendStreamState streamId with ⟨d, _ | message⟩
  · rw [checked] at validated
    dsimp only at validated ⊢
    split
    · exact edits_same validated
    · rw [← validated]
      exact .single (edit_abandonBuffer rfl rfl)
  · rw [checked] at validated
    exact edits_same validated

theorem edits_resetStreamAt (c : Connection) (streamId errorCode reliableSize : Nat) :
    Edits announced drains c.sendView
      (c.resetStreamAt streamId errorCode reliableSize).1.sendView := by
  have validated := (Leaves.validateSendStreamState c streamId).sameSending
  unfold resetStreamAt
  split
  · exact .refl
  split
  · exact .refl
  rcases checked : c.validateSendStreamState streamId with ⟨d, _ | message⟩
  · rw [checked] at validated
    dsimp only at validated ⊢
    split
    · split <;> exact edits_same validated
    split
    · rw [← validated]
      exact .single (edit_setSendStream rfl id rfl)
    · rw [← validated]
      have abandoned : Edit announced drains d.sendView (d.abandonBuffer streamId
          { d.sendStream streamId with
            resetAt := true, resetReliableSize := reliableSize }).sendView :=
        edit_abandonBuffer rfl rfl
      exact .single abandoned
  · rw [checked] at validated
    exact edits_same validated

theorem acknowledgeFrame_cases (sendStreams : SortedMap Nat SendStream) (frame : Frame) :
    acknowledgeFrame sendStreams frame = sendStreams ∨ ∃ streamId before after,
      sendStreams.find? streamId = some before ∧ SendStream.SameSent before after ∧
      acknowledgeFrame sendStreams frame = sendStreams.insert streamId after := by
  have answers {before : SendStream} : SendStream.SameSent before
      { before with resetAcked := true } := by constructor <;> rfl
  unfold acknowledgeFrame
  split
  · split
    · rename_i streamId offset data fin _ before found
      obtain ⟨same, -⟩ := SendStream.acknowledgeRange_same before offset data.length
      refine .inr ⟨streamId, before, _, found, ?_, rfl⟩
      exact same.trans (by constructor <;> rfl)
    · exact .inl rfl
  · split
    · rename_i found
      exact .inr ⟨_, _, _, found, answers, rfl⟩
    · exact .inl rfl
  · split
    · rename_i found
      exact .inr ⟨_, _, _, found, answers, rfl⟩
    · exact .inl rfl
  · exact .inl rfl

theorem edits_acknowledgeFrames (frames : List Frame) (view : SendView) :
    Edits announced drains view { view with
      sendStreams := frames.foldl acknowledgeFrame view.sendStreams } := by
  induction frames generalizing view with
  | nil => exact .refl
  | cons frame rest ih =>
    have later := ih { view with sendStreams := acknowledgeFrame view.sendStreams frame }
    refine Relation.ReflTransGen.trans ?_ later
    rcases acknowledgeFrame_cases view.sendStreams frame with same |
      ⟨streamId, before, after, found, sent, answered⟩
    · rw [same]
    · have held : view.sendStream streamId = before := SendView.sendStream_of_found found
      have compacts : (view.sendStream streamId).Compacted → after.Compacted := by
        unfold SendStream.Compacted
        rw [held, sent.buffer, sent.bufferOffset]
        exact id
      have remaining : after.remaining = (view.sendStream streamId).remaining := by
        unfold SendStream.remaining
        rw [held, sent.buffer, sent.bufferOffset]
      rw [answered]
      have edit : Edit announced drains view { view with
          sendStreams := view.sendStreams.insert streamId after
          bufferedStreamSendBytes := view.bufferedStreamSendBytes } :=
        .rewrite (sent.nextOffset.trans (held ▸ rfl)) compacts
          (by rw [remaining, Nat.add_sub_cancel])
      exact .single edit

theorem edits_acknowledgePacket (level : Level) (c : Connection) (packetNumber : Nat) :
    Edits announced drains c.sendView (acknowledgePacket level c packetNumber).sendView := by
  unfold acknowledgePacket
  split
  · exact .refl
  · exact edits_acknowledgeFrames _ c.sendView

theorem edits_settleAck (c : Connection) (level : Level) (clock : Clock) (loss : LossRecovery)
    (result : AckResult) :
    Edits announced drains c.sendView (c.settleAck level clock loss result).sendView := by
  have acknowledged (numbers : List Nat) (c : Connection) : Edits announced drains c.sendView
      (numbers.foldl (acknowledgePacket level) c).sendView := by
    induction numbers generalizing c with
    | nil => exact .refl
    | cons number rest ih => exact (edits_acknowledgePacket level c number).trans (ih _)
  refine Relation.ReflTransGen.trans
    (acknowledged result.newlyAcked (c.startAck level loss result)) (edits_same ?_)
  exact (Leaves.detectPersistentCongestion _ _ _).sameSending.trans
    (Leaves.loseAll _ _ _ (_, ⟨0, 0, 0⟩)).sameSending

/-- Streams that can be retired have sent all they have. -/
def Drained (c : Connection) : Prop :=
  ∀ streamId stream, c.sendStreams.find? streamId = some stream →
    c.retires streamId stream = true → stream.remaining = 0

theorem edit_retireStream
    (found : c.sendStreams.find? streamId = some stream) (drained : drains → stream.remaining = 0) :
    Edit announced drains c.sendView (c.retireStream streamId).sendView := by
  have granted (c : Connection) : c.grantPeerStream.sendView = c.sendView := by
    unfold grantPeerStream
    split <;> rfl
  unfold retireStream
  rw [granted]
  have edit : Edit announced drains c.sendView { c.sendView with
      sendStreams := c.sendView.sendStreams.erase streamId
      peerStreamMaxData := c.sendView.peerStreamMaxData.erase streamId } := .retire found drained
  exact edit

theorem edits_retireAll (entries : List (Nat × SendStream)) (c : Connection)
    (distinct : entries.Pairwise fun left right => left.1 < right.1)
    (held : ∀ entry ∈ entries, c.sendStreams.find? entry.1 = some entry.2)
    (drained : drains → ∀ entry ∈ entries, c.retires entry.1 entry.2 = true →
      entry.2.remaining = 0) :
    Edits announced drains c.sendView (c.retireAll entries).sendView := by
  induction entries generalizing c with
  | nil => exact .refl
  | cons entry rest ih =>
    obtain ⟨above, tail⟩ := pairwise_cons.mp distinct
    unfold retireAll
    rw [foldl_cons]
    split
    · rename_i meets
      have present := held entry mem_cons_self
      refine Relation.ReflTransGen.head
        (edit_retireStream present fun drains => drained drains entry mem_cons_self meets)
        (ih _ tail (fun other member => ?_) fun drains other member later => ?_)
      · rw [retireStream_sendStreams, SortedMap.find?_erase, if_neg (above other member).ne']
        exact held other (mem_cons_of_mem _ member)
      · rw [retires_retireStream (above other member).ne'] at later
        exact drained drains other (mem_cons_of_mem _ member) later
    · exact ih c tail (fun other member => held other (mem_cons_of_mem _ member))
        fun drains other member => drained drains other (mem_cons_of_mem _ member)

theorem edits_retireAcknowledgedPeerStreams (drained : drains → c.Drained) :
    Edits announced drains c.sendView c.retireAcknowledgedPeerStreams.sendView :=
  edits_retireAll c.sendStreams.entries c c.sendStreams.ordered
    (fun _ member => SortedMap.find?_of_mem member)
    fun drains entry member => drained drains entry.1 entry.2 (SortedMap.find?_of_mem member)

theorem streamLimit_sendView (c : Connection) (streamId : Nat) :
    c.sendView.streamLimit streamId = c.peerStreamSendLimit streamId := by
  change max _ ((c.receive.peerStreamMaxData.find? streamId).getD 0) = _
  unfold initialStreamLimit peerStreamSendLimit
  cases c.receive.peerStreamMaxData.find? streamId with
  | none => exact Nat.max_zero _
  | some limit => rfl

theorem remaining_stageChunk (within : chunkSize ≤ stream.remaining) :
    (stream.stageChunk chunkSize).remaining + chunkSize = stream.remaining := by
  unfold SendStream.stageChunk SendStream.remaining at *
  dsimp only
  split
  · rename_i whole
    rw [whole]
    exact Nat.zero_add _
  · omega

theorem compacted_stageChunk
    (within : chunkSize ≤ stream.remaining) (compacted : stream.Compacted) :
    (stream.stageChunk chunkSize).Compacted := by
  unfold SendStream.stageChunk SendStream.Compacted SendStream.remaining at *
  dsimp only
  split
  · exact Nat.zero_le _
  · omega

theorem stages_stageOneStreamFrame (peer : c.setup.peerParams.isSome = true) (streamId : Nat) :
    Stages c.sendView (c.stageOneStreamFrame streamId).1.sendView := by
  unfold stageOneStreamFrame
  split
  · exact .refl
  rename_i stream found
  split
  · split
    · exact .refl
    · have admitted : c.streamAllowance streamId stream =
          min (c.peerStreamSendLimit streamId - stream.nextOffset)
            (c.connectionFlow.peerMaxData - c.sending.totalStreamBytesSent) := by
        obtain ⟨params, known⟩ := Option.isSome_iff_exists.mp peer
        unfold streamAllowance
        rw [known]
        rfl
      generalize chosen : min (min stream.remaining (c.streamAllowance streamId stream))
        kStreamChunkBytes = chunkSize
      have stage : Stage c.sendView { c.sendView with
          sendStreams := c.sendView.sendStreams.insert streamId (stream.stageChunk chunkSize)
          bufferedStreamSendBytes := c.sendView.bufferedStreamSendBytes - chunkSize
          totalStreamBytesSent := c.sendView.totalStreamBytesSent + chunkSize } := by
        have within : chunkSize ≤ stream.remaining := by omega
        refine .chunk found rfl (remaining_stageChunk within) (compacted_stageChunk within)
          fun positive => ⟨?_, ?_⟩
        · rw [streamLimit_sendView]
          change stream.nextOffset + chunkSize ≤ _
          omega
        · change c.sending.totalStreamBytesSent + chunkSize ≤ c.connectionFlow.peerMaxData
          omega
      exact .single stage
  split
  · have stage : Stage c.sendView { c.sendView with
        sendStreams := c.sendView.sendStreams.insert streamId { stream with finSent := true }
        bufferedStreamSendBytes := c.sendView.bufferedStreamSendBytes - 0
        totalStreamBytesSent := c.sendView.totalStreamBytesSent + 0 } :=
      .chunk found rfl rfl id fun positive => absurd positive (lt_irrefl 0)
    exact .single stage
  · exact .refl

theorem stages_stageLoop (streamIds : List Nat) (budget fuel : Nat)
    (peer : c.setup.peerParams.isSome = true) (cursor staged withoutProgress : Nat) :
    Stages c.sendView
      (stageLoop streamIds budget fuel c cursor staged withoutProgress).1.sendView := by
  induction fuel generalizing c cursor staged withoutProgress with
  | zero => exact .refl
  | succ fuel ih =>
    have turn := stages_stageOneStreamFrame peer (streamIds.getD cursor 0)
    have still : (c.stageOneStreamFrame (streamIds.getD cursor 0)).1.setup = c.setup :=
      Stages.setup turn
    have later := fun cursor staged withoutProgress =>
      turn.trans (ih (still ▸ peer) cursor staged withoutProgress)
    rw [stageLoop]
    split
    · dsimp only
      split
      · exact later _ _ _
      · exact later _ _ _
    · exact .refl

theorem stages_stageLevel (peer : c.setup.peerParams.isSome = true) (level : Level) :
    Stages c.sendView (c.stageLevel level).sendView := by
  unfold stageLevel stageStreamFrames
  dsimp only
  split
  · split
    · exact .refl
    split
    · exact .refl
    · exact stages_stageLoop _ _ _ peer _ _ _
  · exact .refl

theorem stages_buildDatagrams (peer : c.setup.peerParams.isSome = true) (clock : Clock)
    (seals : Nat → Nat → Bool) :
    Stages c.sendView (c.buildDatagrams clock seals).1.sendView := by
  have rule : BuildRule clock.nowMs seals fun d _ => Stages c.sendView d.sendView := by
    have assembled {d e : Connection} {level : Level} {generated : Option Frame}
        (before : Stages c.sendView d.sendView)
        (made : (d.assemblePacket level clock.nowMs seals generated).connection = e) :
        Stages c.sendView e.sendView := by
      rw [← made, (Leaves.assemblePacket (by decide) _ _ _ _ _).sameSending]
      exact before
    constructor
    · intro d _ level before
      have still : d.setup = c.setup := Stages.setup before
      exact before.trans (stages_stageLevel (still ▸ peer) level)
    · exact fun _ _ _ _ _ _ before made => assembled before (congrArg Assembled.connection made)
    · exact fun _ _ _ _ _ before made => assembled before (congrArg Assembled.connection made)
    · exact fun _ _ _ _ _ _ before made => assembled before (congrArg Assembled.connection made)
  unfold buildDatagrams
  dsimp only
  split
  · exact .refl
  · exact .refl
  · exact stages_same (Leaves.buildCloseDatagram (by decide) _ clock seals).sameSending
  · exact @BuildRule.buildLevels _ _ _ rule _ { c with
      driver.pacing := refillPacing c.driver.pacing clock.nowMs } [] .refl

/-- What the peer announces in a frame. -/
def announcedData : Input → Nat
  | .processFrame _ _ _ (.maxData maximum) => maximum
  | _ => 0

def announcedStreamData : Input → Nat → Nat
  | .processFrame _ _ _ (.maxStreamData target maximum), streamId =>
    if streamId = target then maximum else 0
  | _, _ => 0

def buildsDatagrams : Input → Bool
  | .buildDatagrams .. => true
  | _ => false

theorem edits_processMaxStreamData {maximum : Nat}
    (known : maximum ≤ announced.maxStreamData streamId) :
    Edits announced drains c.sendView (c.processMaxStreamData streamId maximum).1.sendView := by
  unfold processMaxStreamData
  split
  · exact .refl
  split
  · exact .refl
  · have edit : Edit announced drains c.sendView { c.sendView with
        peerStreamMaxData := c.sendView.peerStreamMaxData.insert streamId
          (max ((c.sendView.peerStreamMaxData.find? streamId).getD 0) maximum) } :=
      .maxStreamData known
    exact .single edit

theorem edits_retireUnlessFailed (same : result.1.sendView = c.sendView)
    (drained : drains → ∀ settled, unlessRefused result = some settled → settled.Drained) :
    Edits announced drains c.sendView (retireUnlessFailed result).1.sendView := by
  obtain ⟨d, _ | message⟩ := result
  · exact (edits_same same).trans
      (edits_retireAcknowledgedPeerStreams fun drains => drained drains d rfl)
  · exact edits_same same

theorem edits_processFrame {level : Level}
    (drained : drains → ∀ settled, c.settled (.processFrame level mode clock frame) = some settled →
      settled.Drained)
    (data : announcedData (.processFrame level mode clock frame) ≤ announced.maxData)
    (streamData : ∀ streamId, announcedStreamData (.processFrame level mode clock frame) streamId ≤
      announced.maxStreamData streamId) :
    Edits announced drains c.sendView (c.processFrame level mode clock frame).1.sendView := by
  cases frame with
  | ack largest delay firstAckRange ranges ecn =>
    change Edits announced drains _
      (c.processAckFrame level clock largest firstAckRange ranges).1.sendView
    cases tried : c.settledAck level clock largest firstAckRange ranges with
    | none =>
      unfold settledAck ackEvent at tried
      unfold processAckFrame
      split
      · exact .refl
      · rename_i decoded
        split
        · exact .refl
        · rename_i received
          simp [decoded, received] at tried
    | some settled =>
      obtain ⟨loss, result, event, rfl, done⟩ := settledAck_eq tried
      rw [done]
      exact (edits_settleAck c level clock loss result).trans
        (edits_retireAcknowledgedPeerStreams fun drains => drained drains _ tried)
  | maxData maximum =>
    have edit : Edit announced drains c.sendView { c.sendView with
        peerMaxData := max c.sendView.peerMaxData maximum } := .maxData data
    exact .single edit
  | maxStreamData streamId maximum =>
    have known := streamData streamId
    rw [announcedStreamData, if_pos rfl] at known
    exact edits_processMaxStreamData known
  | resetStream streamId errorCode finalSize =>
    change Edits announced drains _
      (c.processResetStreamFrame streamId errorCode finalSize).1.sendView
    unfold processResetStreamFrame
    split
    · exact .refl
    · rename_i live
      refine edits_retireUnlessFailed (Leaves.receiveReset c _ _ _).sameSending
        fun drains settled tried => drained drains settled ?_
      exact (if_neg live).trans tried
  | resetStreamAt streamId errorCode finalSize reliableSize =>
    change Edits announced drains _
      (c.processResetStreamAtFrame streamId errorCode finalSize reliableSize).1.sendView
    unfold processResetStreamAtFrame
    split
    · exact .refl
    split
    · exact .refl
    split
    · exact .refl
    · rename_i negotiated covered live
      refine edits_retireUnlessFailed (Leaves.receiveResetAt c _ _ _ _).sameSending
        fun drains settled tried => drained drains settled ?_
      exact (if_neg negotiated).trans ((if_neg covered).trans ((if_neg live).trans tried))
  | stopSending streamId errorCode =>
    change Edits announced drains _ (c.processStopSending streamId errorCode).1.sendView
    unfold processStopSending
    split
    · exact .refl
    split
    · exact .refl
    · exact edits_resetStream c streamId errorCode
  | _ =>
    refine edits_same (Leaves.processFrame c level mode clock ?_).sameSending
    simp [touchedByFrame]

/-- Every call that builds no packet is a chain of edits. -/
theorem edits_perform {input : Input} (compacted : ∀ streamId, (c.sendStream streamId).Compacted)
    (drained : drains → ∀ settled, c.settled input = some settled → settled.Drained)
    (data : announcedData input ≤ announced.maxData)
    (streamData : ∀ streamId, announcedStreamData input streamId ≤ announced.maxStreamData streamId)
    (other : buildsDatagrams input = false) :
    Edits announced drains c.sendView (c.perform input).sendView := by
  cases input with
  | sendStreamData streamId bytes fin => exact edits_sendStreamData compacted streamId bytes fin
  | resetStream streamId errorCode => exact edits_resetStream c streamId errorCode
  | resetStreamAt streamId errorCode reliableSize =>
    exact edits_resetStreamAt c streamId errorCode reliableSize
  | readStream streamId =>
    exact (edits_same (Leaves.consumeStream c streamId).sameSending).trans
      (edits_retireAcknowledgedPeerStreams fun drains => drained drains _ rfl)
  | releasePeerBidirectionalStream streamId =>
    unfold Connection.perform
    dsimp only
    cases tried : c.settledRelease streamId with
    | none =>
      unfold settledRelease at tried
      unfold Connection.releasePeerBidirectionalStream
      split
      · exact .refl
      · rename_i peer
        rw [if_neg peer] at tried
        split
        · exact .refl
        · rename_i found
          rw [found] at tried
          dsimp only at tried
          split
          · exact .refl
          · rename_i finished
            rw [if_neg finished] at tried
            split
            · exact .refl
            · rename_i unreleased
              rw [if_neg unreleased] at tried
              cases tried
    | some settled =>
      obtain ⟨stream, found, peer, rfl, done⟩ := settledRelease_eq tried
      rw [done]
      have released : Edit announced drains c.sendView (c.releasePending streamId).sendView :=
        edit_setSendStream rfl id rfl
      exact (Relation.ReflTransGen.single released).trans
        (edits_retireAcknowledgedPeerStreams fun drains => drained drains _ tried)
  | buildDatagrams => cases other
  | processFrame => exact edits_processFrame drained data streamData
  | _ =>
    refine edits_same (Leaves.perform c ?_).sameSending
    simp [touchedBy]

end Connection
end SwStack.Quic
