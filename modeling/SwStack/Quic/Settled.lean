import SwStack.Quic.FlowCredit
import SwStack.Quic.History
import SwStack.Quic.Leaves

/-! The state in which an input tries to retire streams: what its acknowledgements and its
reading made of the streams of the state before. -/
namespace SwStack.Quic

open SwStack.Lib List

namespace Connection

variable {c d settled : Connection} {input : Input}

theorem of_unlessRefused
    (accepted : unlessRefused result = some settled) : result = (settled, none) := by
  obtain ⟨next, _ | message⟩ := result
  · cases accepted
    rfl
  · cases accepted

theorem settledRelease_eq (tried : c.settledRelease streamId = some settled) :
    ∃ stream, c.sendStreams.find? streamId = some stream ∧
      c.isPeerInitiatedBidirectional streamId = true ∧ settled = c.releasePending streamId ∧
      (c.releasePeerBidirectionalStream streamId).1 = settled.retireAcknowledgedPeerStreams := by
  unfold settledRelease at tried
  unfold releasePeerBidirectionalStream
  split at tried
  · contradiction
  · rename_i peer
    rw [if_neg peer]
    cases found : c.sendStreams.find? streamId with
    | none =>
      simp only [found] at tried
      contradiction
    | some stream =>
      simp only [found] at tried ⊢
      split at tried
      · contradiction
      · rename_i finished
        rw [if_neg finished]
        split at tried
        · contradiction
        · rename_i unreleased
          rw [if_neg unreleased]
          cases tried
          exact ⟨stream, rfl, by simpa using peer, rfl, rfl⟩

theorem settledAck_eq {ranges : List AckRange}
    (tried : c.settledAck level clock largest firstAckRange ranges = some settled) :
    ∃ loss result, c.ackEvent level clock largest firstAckRange ranges = some (loss, result) ∧
      settled = c.settleAck level clock loss result ∧
      (c.processAckFrame level clock largest firstAckRange ranges).1 =
        settled.retireAcknowledgedPeerStreams.refreshInFlightFlag level := by
  unfold settledAck at tried
  obtain ⟨⟨loss, result⟩, event, rfl⟩ := Option.map_eq_some_iff.mp tried
  refine ⟨loss, result, event, rfl, ?_⟩
  unfold ackEvent at event
  unfold processAckFrame
  cases decoded : acknowledgedRanges largest firstAckRange ranges with
  | error message =>
    rw [decoded] at event
    contradiction
  | ok decodedRanges =>
    rw [decoded] at event
    dsimp only at event ⊢
    cases received : (c.spaces level).loss.onAckReceived largest decodedRanges clock with
    | error message =>
      rw [received] at event
      contradiction
    | ok outcome =>
      rw [received] at event
      cases event
      rfl

theorem settledReset_eq (tried : c.settledReset streamId errorCode finalSize = some settled) :
    c.isRetiredPeerBidirectional streamId = false ∧
      (c.receiveReset streamId errorCode finalSize).1 = settled ∧
      (c.processResetStreamFrame streamId errorCode finalSize).1 =
        settled.retireAcknowledgedPeerStreams := by
  unfold settledReset at tried
  unfold processResetStreamFrame
  split at tried
  · contradiction
  · rename_i live
    rw [if_neg live, of_unlessRefused tried]
    exact ⟨by simpa using live, rfl, rfl⟩

theorem settledResetAt_eq
    (tried : c.settledResetAt streamId errorCode finalSize reliableSize = some settled) :
    c.isRetiredPeerBidirectional streamId = false ∧
      (c.receiveResetAt streamId errorCode finalSize reliableSize).1 = settled ∧
      (c.processResetStreamAtFrame streamId errorCode finalSize reliableSize).1 =
        settled.retireAcknowledgedPeerStreams := by
  unfold settledResetAt at tried
  unfold processResetStreamAtFrame
  split at tried
  · contradiction
  · rename_i negotiated
    rw [if_neg negotiated]
    split at tried
    · contradiction
    · rename_i covered
      rw [if_neg covered]
      split at tried
      · contradiction
      · rename_i live
        rw [if_neg live, of_unlessRefused tried]
        exact ⟨by simpa using live, rfl, rfl⟩

theorem settled_changes (retirement : Retirement c)
    (acknowledged : ∀ frame ∈ c.ackedFrames input, rules.acknowledged frame)
    (receive : ReceivePermits rules input) (tried : c.settled input = some settled) :
    Changes rules c settled := by
  unfold Connection.settled at tried
  split at tried
  · cases tried
    exact consumeStream_changes retirement receive
  · obtain ⟨stream, found, peer, rfl, -⟩ := settledRelease_eq tried
    exact .single (.release found peer)
  · rename_i level mode clock largest delay firstAckRange ranges ecn
    obtain ⟨loss, result, event, rfl, -⟩ := settledAck_eq tried
    have answered : ∀ frame ∈ result.newlyAcked.flatMap (c.recordedFrames level),
        rules.acknowledged frame := by
      simp only [ackedFrames, event] at acknowledged
      exact acknowledged
    unfold ackEvent at event
    split at event
    · contradiction
    · split at event
      · contradiction
      · rename_i received
        cases event
        refine settleAck_changes (LossRecovery.onAckReceived_sent received) ?_
        intro number member record found frame carried
        refine answered frame (mem_flatMap.mpr ⟨number, member, ?_⟩)
        simp only [recordedFrames, found]
        exact carried
  · obtain ⟨live, rfl, -⟩ := settledReset_eq tried
    exact (receiveReset_receives receive c _ _).changes live
  · obtain ⟨live, rfl, -⟩ := settledResetAt_eq tried
    exact (receiveResetAt_receives receive c _ _ _).changes live
  · contradiction

theorem perform_of_settled (tried : c.settled input = some settled) :
    Quiet settled.retireAcknowledgedPeerStreams (c.perform input) := by
  have same {d : Connection} (same : d = settled.retireAcknowledgedPeerStreams) :
      Quiet settled.retireAcknowledgedPeerStreams d := same ▸ .refl _
  unfold Connection.settled at tried
  split at tried
  · cases tried
    exact .refl _
  · obtain ⟨_, _, _, _, done⟩ := settledRelease_eq tried
    exact same done
  · obtain ⟨_, _, _, _, done⟩ := settledAck_eq tried
    unfold perform processFrame
    dsimp only
    rw [done]
    exact refreshInFlightFlag_quiet _ _
  · obtain ⟨_, _, done⟩ := settledReset_eq tried
    exact same done
  · obtain ⟨_, _, done⟩ := settledResetAt_eq tried
    exact same done
  · contradiction

/-- No stream was retired. -/
structure SameRetired (before after : Connection) : Prop where
  role : after.setup.role = before.setup.role
  ranges : after.retiredPeerBidiRanges = before.retiredPeerBidiRanges
  limit : after.streamLimits.localMaxStreamsBidi = before.streamLimits.localMaxStreamsBidi

theorem SameRetired.refl (c : Connection) : SameRetired c c := ⟨rfl, rfl, rfl⟩

theorem SameRetired.trans (left : SameRetired first second)
    (right : SameRetired second third) : SameRetired first third :=
  ⟨right.role.trans left.role, right.ranges.trans left.ranges, right.limit.trans left.limit⟩

theorem SameRetired.of_ledger (ledger : d.ledger = c.ledger) : SameRetired c d :=
  ⟨congrArg Ledger.role ledger, congrArg Ledger.retired ledger,
    congrArg Ledger.localMaxStreamsBidi ledger⟩

theorem Change.sameRetired (never : ∀ stream, ¬ rules.retire stream) (change : Change rules c d) :
    SameRetired c d ∧ (d.receive = c.receive ∨ rules.receive c d) := by
  cases change with
  | quiet quiet => exact ⟨.of_ledger quiet.ledger, .inl quiet.receive⟩
  | receive _ only permitted => exact ⟨.of_ledger only.ledger, .inr permitted⟩
  | enqueue _ | shed _ _ | touch _ | append _ _ _ _ | reset _ _ _ | resetAt _ _ _ _ | transmit _ _
  | spend _ | migrate _ | release _ _ => exact ⟨⟨rfl, rfl, rfl⟩, .inl rfl⟩
  | stage =>
    rename_i streamId
    rcases stageOneStreamFrame_cases c streamId with same |
      ⟨stream, -, ⟨chunkSize, -, -, staged⟩ | ⟨-, -, -, staged⟩⟩
    · rw [same]
      exact ⟨.refl c, .inl rfl⟩
    all_goals
      rw [staged]
      exact ⟨⟨rfl, rfl, rfl⟩, .inl rfl⟩
  | acknowledge _ =>
    unfold acknowledgePacket
    split <;> exact ⟨⟨rfl, rfl, rfl⟩, .inl rfl⟩
  | lose =>
    unfold losePacket
    split <;> exact ⟨⟨rfl, rfl, rfl⟩, .inl rfl⟩
  | drop _ =>
    unfold dropLevelKeys
    split <;> exact ⟨⟨rfl, rfl, rfl⟩, .inl rfl⟩
  | retire _ _ permitted => exact absurd permitted (never _)

theorem Changes.sameRetired (never : ∀ stream, ¬ rules.retire stream)
    (changes : Changes rules c d) : SameRetired c d := by
  induction changes with
  | refl => exact .refl c
  | tail _ change ih => exact ih.trans (Change.sameRetired never change).1

/-- Rules for a run with a given set of acknowledged frames in which nothing is written and
no stream retired. -/
def quietRules (acked : Frame → Prop) : Rules :=
  { append := fun _ _ _ => False, queue := fun _ => False, acknowledged := acked
    receive := fun _ _ => True, drop := fun _ _ => True, migrate := fun _ => True
    retire := fun _ => False }

theorem receivePermits_quietRules (acked : Frame → Prop) (input : Input) :
    ReceivePermits (quietRules acked) input := by
  unfold ReceivePermits
  split <;> intros <;> trivial

theorem Changes.sameTerminal (never : ∀ stream, ¬ rules.retire stream)
    (keeps : ∀ c d, rules.receive c d → d.receiveTerminal streamId = c.receiveTerminal streamId)
    (changes : Changes rules c d) : d.receiveTerminal streamId = c.receiveTerminal streamId := by
  induction changes with
  | refl => rfl
  | tail _ change ih =>
    refine Eq.trans ?_ ih
    rcases (Change.sameRetired never change).2 with same | permitted
    · exact receiveTerminal_congr (by rw [same]) (by rw [same])
    · exact keeps _ _ permitted

theorem acknowledgePacket_recordedFrames (c : Connection) (level : Level) (number : Nat)
    (frame : Frame) (other : Nat) :
    frame ∈ c.recordedFrames level number ∨
        frame ∈ (acknowledgePacket level c number).recordedFrames level other ↔
      frame ∈ c.recordedFrames level number ∨ frame ∈ c.recordedFrames level other := by
  unfold acknowledgePacket
  split
  · rfl
  · by_cases same : other = number
    · subst same
      simp [recordedFrames, forgetPacket, SortedMap.find?_erase]
    · simp [recordedFrames, forgetPacket, SortedMap.find?_erase, same]

/-- The frames of the acknowledged packets reach their streams, each at least once. -/
theorem foldl_acknowledgePacket_sends (numbers : List Nat) (c : Connection) (level : Level)
    (streamId : Nat) :
    ∃ frames : List Frame,
      (∀ frame, frame ∈ frames ↔ frame ∈ numbers.flatMap (c.recordedFrames level)) ∧
      (numbers.foldl (acknowledgePacket level) c).sendStreams.find? streamId =
        (c.sendStreams.find? streamId).map fun stream =>
          frames.foldl (SendStream.answered streamId) stream := by
  induction numbers generalizing c with
  | nil => exact ⟨[], by simp, by simp⟩
  | cons number rest ih =>
    obtain ⟨later, members, sends⟩ := ih (acknowledgePacket level c number)
    refine ⟨c.recordedFrames level number ++ later, fun frame => ?_, ?_⟩
    · have each := acknowledgePacket_recordedFrames c level number frame
      simp only [mem_append, members, flatMap_cons, mem_flatMap]
      constructor
      · rintro (first | ⟨other, member, carried⟩)
        · exact .inl first
        · exact ((each other).mp (.inr carried)).imp id fun held => ⟨other, member, held⟩
      · rintro (first | ⟨other, member, carried⟩)
        · exact .inl first
        · exact ((each other).mpr (.inr carried)).imp id fun held => ⟨other, member, held⟩
    · have first : (acknowledgePacket level c number).sendStreams.find? streamId =
          (c.sendStreams.find? streamId).map fun stream =>
            (c.recordedFrames level number).foldl (SendStream.answered streamId) stream := by
        cases found : (c.spaces level).sentPackets.find? number with
        | none => simp [acknowledgePacket, recordedFrames, found]
        | some record =>
          simp only [acknowledgePacket, recordedFrames, found]
          exact find?_foldl_acknowledgeFrame _ _ _
      rw [foldl_cons, sends, first, Option.map_map]
      simp only [foldl_append]
      rfl

/-- A stream of the settled state is one of the state before, with the frames of the input
acknowledged, and released only if it was before or is by the input. -/
theorem settled_stream (tried : c.settled input = some settled)
    (found : settled.sendStreams.find? streamId = some stream) :
    ∃ before pending, ∃ frames : List Frame, c.sendStreams.find? streamId = some before ∧
      (∀ frame, frame ∈ frames ↔ frame ∈ c.ackedFrames input) ∧
      stream = { frames.foldl (SendStream.answered streamId) before with
        peerCreditPending := pending } ∧
      (pending = true → before.peerCreditPending = true ∨
        input = .releasePeerBidirectionalStream streamId) := by
  have same (sends : settled.sendStreams = c.sendStreams) (empty : c.ackedFrames input = []) :
      ∃ before pending, ∃ frames : List Frame, c.sendStreams.find? streamId = some before ∧
        (∀ frame, frame ∈ frames ↔ frame ∈ c.ackedFrames input) ∧
        stream = { frames.foldl (SendStream.answered streamId) before with
          peerCreditPending := pending } ∧
        (pending = true → before.peerCreditPending = true ∨
          input = .releasePeerBidirectionalStream streamId) :=
    ⟨stream, stream.peerCreditPending, [], sends ▸ found, by simp [empty], rfl, .inl⟩
  unfold Connection.settled at tried
  split at tried
  · rename_i target
    cases tried
    exact same (congrArg SendView.sendStreams (Leaves.consumeStream c target).sameSending) rfl
  · obtain ⟨before, present, -, rfl, -⟩ := settledRelease_eq tried
    rename_i target
    unfold releasePending setSendStream at found
    rw [SortedMap.find?_insert] at found
    split at found
    · rename_i here
      subst here
      cases found
      rw [sendStream_of_found present]
      exact ⟨before, true, [], present, by simp [ackedFrames], rfl, fun _ => .inr rfl⟩
    · exact ⟨stream, stream.peerCreditPending, [], found, by simp [ackedFrames], rfl, .inl⟩
  · rename_i level mode clock largest delay firstAckRange ranges ecn
    obtain ⟨loss, result, event, rfl, -⟩ := settledAck_eq tried
    have lost (numbers : List Nat) (state : Connection × LostSpan) :
        (numbers.foldl (losePacket level clock.nowMs) state).1.sendStreams =
          state.1.sendStreams := by
      induction numbers generalizing state with
      | nil => rfl
      | cons number rest ih =>
        exact (ih _).trans (losePacket_same state level clock.nowMs number).2.2.2
    have sends : (c.settleAck level clock loss result).sendStreams =
        (result.newlyAcked.foldl (acknowledgePacket level)
          (c.startAck level loss result)).sendStreams := by
      refine Eq.trans ?_ (lost result.lost (_, ⟨0, 0, 0⟩))
      unfold settleAck detectPersistentCongestion
      split <;> rfl
    obtain ⟨frames, members, acked⟩ := foldl_acknowledgePacket_sends result.newlyAcked
      (c.startAck level loss result) level streamId
    rw [sends, acked, Option.map_eq_some_iff] at found
    obtain ⟨before, present, rfl⟩ := found
    refine ⟨before, _, frames, present, fun frame => ?_, rfl, fun pending => .inl ?_⟩
    · have recorded : (c.startAck level loss result).recordedFrames level =
          c.recordedFrames level := by
        funext number
        simp [recordedFrames, startAck]
      rw [members, recorded]
      simp only [ackedFrames, event]
    · exact (SendStream.foldl_answered_same streamId frames before).peerCreditPending ▸ pending
  · rename_i target errorCode finalSize
    obtain ⟨-, rfl, -⟩ := settledReset_eq tried
    exact same (congrArg SendView.sendStreams
      (Leaves.receiveReset c target errorCode finalSize).sameSending) rfl
  · rename_i target errorCode finalSize reliableSize
    obtain ⟨-, rfl, -⟩ := settledResetAt_eq tried
    exact same (congrArg SendView.sendStreams
      (Leaves.receiveResetAt c target errorCode finalSize reliableSize).sameSending) rfl
  · contradiction

theorem sameTerminal_of_agree (agree : c.receive.AgreeExcept target d.receive)
    (different : streamId ≠ target) : d.receiveTerminal streamId = c.receiveTerminal streamId :=
  receiveTerminal_congr (agree.resetStreams streamId different).symm
    (agree.streams streamId different).symm

/-- What is left of a stream reaches its end, or all that a reliable reset leaves of it. -/
def readsToEnd (c : Connection) (streamId : Nat) : Bool :=
  match c.receive.streams.find? streamId with
  | none => false
  | some stream => stream.readContiguous.1.isReceiveComplete ||
    match c.receive.pendingReliableResets.find? streamId with
    | some pending => decide (pending.reliableSize ≤ stream.readContiguous.1.readOffset)
    | none => false

/-- Whether an input, once accepted, ends the receive side of a stream: it reads up to the end
or brings a reset. -/
def endsReceive (c : Connection) (streamId : Nat) : Input → Bool
  | .readStream target => decide (target = streamId) && c.readsToEnd streamId
  | .processFrame _ _ _ (.resetStream target _ _) => decide (target = streamId)
  | .processFrame _ _ _ (.resetStreamAt target _ _ reliableSize) =>
    decide (target = streamId) && decide (reliableSize = 0)
  | _ => false

theorem accountFinalSize_receive (c : Connection) (streamId finalSize : Nat) :
    ∃ flow, (c.accountFinalSize streamId finalSize).1.receive =
      { c.receive with streamFlow := flow } := by
  unfold accountFinalSize accountBytes accountStream touchStreamFlow
  split
  · cases (c.streamFlowControl streamId).onDataReceived (c.highestReceived streamId)
        (finalSize - c.highestReceived streamId) with
    | error message => exact ⟨_, rfl⟩
    | ok flow =>
      unfold andThen accountConnection
      dsimp only
      split
      · split <;> exact ⟨_, rfl⟩
      · exact ⟨_, rfl⟩
  · exact ⟨_, rfl⟩

/-- A reliable reset with a prefix to read waits for the reading. -/
theorem receiveResetAt_terminal (c : Connection) (waits : reliableSize ≠ 0) :
    (c.receiveResetAt target errorCode finalSize reliableSize).1.receiveTerminal streamId =
      c.receiveTerminal streamId := by
  unfold receiveResetAt
  rcases enforceStreamLimit_cases c target with accepted | ⟨d, message, refused, -, receive, -⟩
  · rw [accepted]
    dsimp only [andThen]
    split
    · rfl
    · obtain ⟨flow, receive⟩ := accountFinalSize_receive (c.touchStreamFlow target) target finalSize
      generalize (c.touchStreamFlow target).accountFinalSize target finalSize = accounted
        at receive ⊢
      obtain ⟨next, _ | message⟩ := accounted <;> dsimp only at receive ⊢
      · unfold scheduleReset
        rw [if_neg waits]
        exact receiveTerminal_congr (by rw [receive]; rfl) (by rw [receive]; rfl)
      · exact receiveTerminal_congr (by rw [receive]; rfl) (by rw [receive]; rfl)
  · rw [refused]
    dsimp only [andThen]
    exact receiveTerminal_congr (by rw [receive]) (by rw [receive])

theorem consumeStream_terminal
    (ended : (c.consumeStream streamId).1.receiveTerminal streamId = true) :
    c.receiveTerminal streamId = true ∨ c.readsToEnd streamId = true := by
  have credited (c : Connection) (bytes : Nat) : ∃ flow,
      (c.creditRead streamId bytes).receive = { c.receive with streamFlow := flow } := by
    unfold creditRead
    split
    · exact ⟨_, rfl⟩
    · obtain ⟨flow, -, receive, -⟩ := creditFlowControl_spec c streamId bytes
      exact ⟨_, receive⟩
  unfold consumeStream readContiguous at ended
  unfold readsToEnd
  cases found : c.receive.streams.find? streamId with
  | none =>
    simp only [found, creditRead, applyReliableReset, length_nil, if_true] at ended
    refine .inl ?_
    split at ended
    · contradiction
    · exact ended
  | some stream =>
    simp only [found] at ended ⊢
    obtain ⟨flow, receive⟩ := credited { c with
      receive.streams := c.receive.streams.insert streamId stream.readContiguous.1 }
      stream.readContiguous.2.length
    generalize Connection.creditRead _ _ _ = read at ended receive
    unfold applyReliableReset at ended
    rw [receive] at ended
    dsimp only at ended
    rw [SortedMap.find?_insert_self] at ended
    have unmoved (ended : read.receiveTerminal streamId = true) :
        c.receiveTerminal streamId = true ∨ stream.readContiguous.1.isReceiveComplete = true := by
      unfold receiveTerminal at ended ⊢
      rw [receive] at ended
      dsimp only at ended
      rw [SortedMap.find?_insert_self] at ended
      rcases (Bool.or_eq_true _ _).to_iff.mp ended with reset | complete
      · exact .inl (Bool.or_eq_true _ _ |>.mpr (.inl reset))
      · exact .inr complete
    cases pending : c.receive.pendingReliableResets.find? streamId with
    | none =>
      rw [pending] at ended
      exact (unmoved ended).imp id fun complete => by simp [complete]
    | some reset =>
      rw [pending] at ended
      dsimp only at ended ⊢
      split at ended
      · rename_i reaches
        exact .inr (by simp [reaches])
      · exact (unmoved ended).imp id fun complete => by simp [complete]

/-- A receive side that has ended when streams are retired had ended before, or the input
ends it. -/
theorem settled_terminal (retirement : Retirement c) (tried : c.settled input = some settled)
    (ended : settled.receiveTerminal streamId = true) :
    c.receiveTerminal streamId = true ∨ c.endsReceive streamId input = true := by
  have elsewhere (receive : ReceivePermits { quietRules fun _ => True with
      receive := fun c d => d.receiveTerminal streamId = c.receiveTerminal streamId } input) :
      c.receiveTerminal streamId = true := by
    have changes := settled_changes retirement (fun _ _ => trivial) receive tried
    exact (Changes.sameTerminal (fun _ => id) (fun _ _ => id) changes).symm.trans ended
  have other (target : Nat) (different : target ≠ streamId) (c d : Connection)
      (only : ReceiveOnly target c d) :
      d.receiveTerminal streamId = c.receiveTerminal streamId :=
    sameTerminal_of_agree only.receive (Ne.symm different)
  unfold Connection.settled at tried
  split at tried
  · rename_i target
    by_cases here : target = streamId
    · subst here
      cases tried
      simpa [endsReceive] using consumeStream_terminal ended
    · exact .inl (elsewhere (other target here))
  · exact .inl (elsewhere trivial)
  · exact .inl (elsewhere trivial)
  · rename_i target errorCode finalSize
    by_cases here : target = streamId
    · exact .inr (decide_eq_true here)
    · exact .inl (elsewhere fun c d only _ => other target here c d only)
  · rename_i target errorCode finalSize reliableSize
    by_cases here : target = streamId
    · by_cases waits : reliableSize = 0
      · exact .inr (by simp [endsReceive, here, waits])
      · obtain ⟨-, rfl, -⟩ := settledResetAt_eq tried
        exact .inl ((receiveResetAt_terminal c waits).symm.trans ended)
    · exact .inl (elsewhere fun c d only _ => other target here c d only)
  · contradiction

end Connection
end SwStack.Quic
