import SwStack.Quic.Retirement

/-! The send path as chains of changes: the application's calls, staging, and the packets
of a build, sent, withheld or failed. -/
namespace SwStack.Quic.Connection

open SwStack.Lib List

variable {rules : Rules} {c d : Connection}

theorem ledger_setSpace (c : Connection) (level : Level) (space : Space) :
    (c.setSpace level space).ledger = { c.ledger with
      pending := Function.update c.ledger.pending level space.pendingFrames
      sent := Function.update c.ledger.sent level space.sentPackets
      tracked := Function.update c.ledger.tracked level space.loss.sent
      nextTxPn := Function.update c.ledger.nextTxPn level space.nextTxPn } := by
  have field {α : Type} (f : Space → α) :
      (fun other => f ((c.setSpace level space).spaces other)) =
        Function.update (fun other => f (c.spaces other)) level (f space) := by
    funext other
    rw [setSpace_spaces, Function.update_apply]
    split <;> rfl
  unfold Connection.ledger
  rw [field Space.pendingFrames, field Space.sentPackets, field fun space => space.loss.sent,
    field Space.nextTxPn]
  rfl

/-- Writing back what the ledger holds changes nothing. -/
@[simp] theorem update_ledger (c : Connection) (level : Level) :
    Function.update c.ledger.pending level (c.spaces level).pendingFrames = c.ledger.pending ∧
      Function.update c.ledger.sent level (c.spaces level).sentPackets = c.ledger.sent ∧
      Function.update c.ledger.tracked level (c.spaces level).loss.sent = c.ledger.tracked ∧
      Function.update c.ledger.nextTxPn level (c.spaces level).nextTxPn = c.ledger.nextTxPn :=
  ⟨Function.update_eq_self level c.ledger.pending, Function.update_eq_self level c.ledger.sent,
    Function.update_eq_self level c.ledger.tracked,
    Function.update_eq_self level c.ledger.nextTxPn⟩

variable {level : Level}

theorem Quiet.setSpace (c : Connection)
    (pending : space.pendingFrames = (c.spaces level).pendingFrames)
    (sent : space.sentPackets = (c.spaces level).sentPackets)
    (tracked : space.loss.sent = (c.spaces level).loss.sent)
    (next : space.nextTxPn = (c.spaces level).nextTxPn)
    (armed : (c.spaces level).txKeys.isSome = true → space.txKeys.isSome = true) :
    Quiet c (c.setSpace level space) := by
  refine ⟨?_, rfl, rfl, fun other able => ?_⟩
  · rw [ledger_setSpace, pending, sent, tracked, next]
    simp only [update_ledger]
  · unfold Connection.levelCanSend at able ⊢
    rw [setSpace_spaces]
    split
    · rename_i here
      subst here
      rcases Bool.or_eq_true _ _ ▸ able with keyed | plain
      · exact Bool.or_eq_true _ _ ▸ .inl (armed keyed)
      · exact Bool.or_eq_true _ _ ▸ .inr plain
    · exact able

theorem Quiet.changes (quiet : Quiet c d) : Changes rules c d := .single (.quiet quiet)

theorem setSpace_setSpace (c : Connection) (level : Level) (first second : Space) :
    (c.setSpace level first).setSpace level second = c.setSpace level second := by
  unfold setSpace
  rw [Function.update_idem]

theorem setSpace_self (c : Connection) (level : Level) : c.setSpace level (c.spaces level) = c := by
  unfold setSpace
  rw [Function.update_eq_self]

theorem enqueue_changes (c : Connection) (level : Level) (frame : Frame)
    (control : frame.isStream = false) : Changes rules c (c.enqueue level frame) := by
  have queues : Change rules c (c.enqueueAll level [frame]) := by
    refine .enqueue fun queued member data => ?_
    rw [mem_singleton.mp member, control] at data
    contradiction
  exact .single queues

variable {streamId : Nat}

theorem Quiet.live (quiet : Quiet c d) (live : c.isRetiredPeerBidirectional streamId = false) :
    d.isRetiredPeerBidirectional streamId = false :=
  (isRetired_congr (congrArg Ledger.role quiet.ledger) (congrArg Ledger.retired quiet.ledger)
    streamId).trans live

theorem Quiet.sendStream (quiet : Quiet c d) (streamId : Nat) :
    d.sendStream streamId = c.sendStream streamId := by
  have same : d.sendStreams = c.sendStreams := congrArg Ledger.sendStreams quiet.ledger
  unfold Connection.sendStream
  rw [same]

theorem Retirement.live_of_local (streamId : Nat) (local_ : c.locallyInitiated streamId = true) :
    c.isRetiredPeerBidirectional streamId = false := by
  simp [isRetiredPeerBidirectional, isPeerInitiatedBidirectional, local_]

theorem Retirement.live_of_known (retirement : Retirement c)
    (known : c.hasStream streamId = true ∨ c.receive.resetStreams.contains streamId = true) :
    c.isRetiredPeerBidirectional streamId = false := by
  refine Bool.eq_false_iff.mpr fun gone => ?_
  have lacks := retirement.tables streamId gone
  rcases known with known | known
  · simp [hasStream, SortedMap.contains, lacks.streams] at known
  · simp [SortedMap.contains, lacks.resetStreams] at known

theorem validateSendStreamState_spec (retirement : Retirement c) (streamId : Nat) :
    Quiet c (c.validateSendStreamState streamId).1 ∧
      ((c.validateSendStreamState streamId).2 = none →
        c.isRetiredPeerBidirectional streamId = false) := by
  unfold validateSendStreamState
  split
  · split
    · exact ⟨.refl c, (by simp)⟩
    · split
      · exact ⟨.refl c, (by simp)⟩
      · rename_i known
        refine ⟨.refl c, fun _ => retirement.live_of_known ?_⟩
        simp only [Bool.and_eq_true, Bool.not_eq_true', not_and_or, Bool.not_eq_false] at known
        exact known
  · rename_i own
    simp only [Bool.not_eq_true', Bool.not_eq_false] at own
    split
    · exact ⟨.refl c, (by simp)⟩
    · exact ⟨⟨rfl, rfl, rfl, fun _ armed => armed⟩, fun _ => Retirement.live_of_local streamId own⟩

/-- Appending succeeds on a live stream that was neither finished nor reset, or nothing
happens. -/
theorem sendStreamData_cases (retirement : Retirement c) (streamId : Nat) (data : Bytes)
    (fin : Bool) :
    ((c.sendStreamData streamId data fin).2 ≠ none ∧
        Quiet c (c.sendStreamData streamId data fin).1) ∨
      ((c.sendStreamData streamId data fin).2 = none ∧ ∃ mid, Quiet c mid ∧
        mid.isRetiredPeerBidirectional streamId = false ∧
        (mid.sendStream streamId).finQueued = false ∧
        (mid.sendStream streamId).resetQueued = false ∧
        Quiet (mid.setSendStream streamId ((mid.sendStream streamId).append data fin))
          (c.sendStreamData streamId data fin).1) := by
  obtain ⟨quiet, live⟩ := validateSendStreamState_spec retirement streamId
  unfold sendStreamData
  split
  · exact .inl ⟨(by simp), .refl c⟩
  · generalize c.validateSendStreamState streamId = validated at quiet live ⊢
    rcases validated with ⟨mid, _ | message⟩
    · dsimp only at quiet live ⊢
      split
      · exact .inl ⟨(by simp), quiet⟩
      · split
        · exact .inl ⟨(by simp), quiet⟩
        · rename_i unfinished
          simp only [not_or, Bool.not_eq_true] at unfinished
          exact .inr ⟨rfl, mid, quiet, quiet.live (live rfl), unfinished.1, unfinished.2, rfl, rfl,
            rfl, fun _ armed => armed⟩
    · exact .inl ⟨(by simp), quiet⟩

theorem sendStreamData_changes (retirement : Retirement c)
    (permitted : rules.append streamId data fin) :
    Changes rules c (c.sendStreamData streamId data fin).1 := by
  rcases sendStreamData_cases retirement streamId data fin with
    ⟨-, quiet⟩ | ⟨-, mid, before, live, finQueued, resetQueued, after⟩
  · exact quiet.changes
  · exact (before.changes.tail (.append live finQueued resetQueued permitted)).tail (.quiet after)

theorem resetStream_changes (retirement : Retirement c)
    (permitted : rules.reset (c.sendStream streamId)) (errorCode : Nat) :
    Changes rules c (c.resetStream streamId errorCode).1 := by
  obtain ⟨quiet, live⟩ := validateSendStreamState_spec retirement streamId
  unfold resetStream
  split
  · exact .refl
  · generalize c.validateSendStreamState streamId = validated at quiet live ⊢
    rcases validated with ⟨mid, _ | message⟩
    · dsimp only at quiet live ⊢
      split
      · exact quiet.changes
      · rename_i fresh
        refine (quiet.changes.tail (.reset (quiet.live (live rfl)) (by simpa using fresh)
          (quiet.sendStream streamId ▸ permitted))).trans ?_
        exact enqueue_changes _ _ _ rfl
    · exact quiet.changes

theorem resetStreamAt_changes (retirement : Retirement c)
    (permitted : rules.reset (c.sendStream streamId)) (errorCode reliableSize : Nat) :
    Changes rules c (c.resetStreamAt streamId errorCode reliableSize).1 := by
  obtain ⟨quiet, live⟩ := validateSendStreamState_spec retirement streamId
  unfold resetStreamAt
  split
  · exact .refl
  · split
    · exact .refl
    · generalize c.validateSendStreamState streamId = validated at quiet live ⊢
      rcases validated with ⟨mid, _ | message⟩
      · dsimp only at quiet live ⊢
        split
        · split <;> exact quiet.changes
        · rename_i fresh
          split
          · exact quiet.changes.tail (.touch (quiet.live (live rfl)))
          · rename_i covered
            refine (quiet.changes.tail (.resetAt (quiet.live (live rfl)) (by simpa using fresh)
              (Nat.le_of_not_lt covered) (quiet.sendStream streamId ▸ permitted))).trans ?_
            exact enqueue_changes _ _ _ rfl
      · exact quiet.changes

theorem stopReceivingStream_changes (c : Connection) (streamId errorCode : Nat) :
    Changes rules c (c.stopReceivingStream streamId errorCode).1 := by
  unfold stopReceivingStream
  repeat' split
  all_goals first | exact .refl | exact enqueue_changes _ _ _ rfl

theorem queueDatagramFrame_quiet (c : Connection) (data : Bytes) :
    Quiet c (c.queueDatagramFrame data).1 := by
  unfold queueDatagramFrame
  dsimp only
  repeat' split
  all_goals exact ⟨rfl, rfl, rfl, fun _ armed => armed⟩

theorem queueFrame_changes (c : Connection) (level : Level) (frame : Frame)
    (permitted : frame.isStream = true → rules.queue frame) :
    Changes rules c (c.queueFrame level frame) := by
  unfold queueFrame
  split
  · exact (queueDatagramFrame_quiet c _).changes
  · have queues : Change rules c (c.enqueueAll level [frame]) := by
      refine .enqueue fun queued member data => ?_
      rw [mem_singleton.mp member] at data ⊢
      exact .inl (permitted data)
    exact .single queues

theorem stageLoop_changes (streamIds : List Nat) (budget fuel : Nat) (c : Connection)
    (cursor staged withoutProgress : Nat) :
    Changes rules c (stageLoop streamIds budget fuel c cursor staged withoutProgress).1 := by
  induction fuel generalizing c cursor staged withoutProgress with
  | zero => exact .refl
  | succ fuel ih =>
    rw [stageLoop]
    split
    · have first : Changes rules c (c.stageOneStreamFrame (streamIds.getD cursor 0)).1 :=
        .single .stage
      dsimp only
      split <;> exact first.trans (ih _ _ _ _)
    · exact .refl

theorem stageStreamFrames_changes (c : Connection) : Changes rules c c.stageStreamFrames := by
  unfold stageStreamFrames
  dsimp only
  split
  · exact .refl
  · split
    · exact .refl
    · exact (stageLoop_changes _ _ _ c _ _ _).tail (.quiet ⟨rfl, rfl, rfl, fun _ armed => armed⟩)

theorem stageLevel_changes (c : Connection) (level : Level) :
    Changes rules c (c.stageLevel level) := by
  unfold stageLevel
  split
  · exact stageStreamFrames_changes c
  · exact .refl

variable {nowMs : Nat} {seals : Nat → Nat → Bool}

theorem encodePacket_sent
    (sent : c.encodePacket level frames ackEliciting nowMs seals maxWireBytes trackGlobalLoss =
      .sent d packet) :
    packet = { level, keys := (c.spaces level).txKeys
               keyPhase := level = .application && c.keys.keyPhase
               packetNumber := (c.spaces level).nextTxPn, frames, size := packet.size } ∧
      d = if ackEliciting && trackGlobalLoss then c.trackPacket level frames nowMs packet.size
        else c.spendPacketNumber level := by
  unfold encodePacket at sent
  split at sent
  · contradiction
  · unfold sealPacket at sent
    split at sent
    · contradiction
    · split at sent
      · contradiction
      · split at sent
        · contradiction
        · cases sent
          exact ⟨rfl, rfl⟩

/-- Packing takes a prefix of the queue, and knows whether it took ack-eliciting frames. -/
theorem pack_spec (congestion : CongestionControl) (payloadBudget : Nat) (queue : List Frame)
    (start : Packing) :
    ∃ count ≤ queue.length,
      (pack congestion payloadBudget queue start).frames = start.frames ++ queue.take count ∧
      (pack congestion payloadBudget queue start).ackEliciting =
        (start.ackEliciting || (queue.take count).any Frame.isAckEliciting) := by
  induction queue generalizing start with
  | nil => exact ⟨0, Nat.zero_le _, by simp [pack]⟩
  | cons next rest ih =>
    rw [pack]
    split
    · exact ⟨0, Nat.zero_le _, by simp⟩
    · split
      · rename_i eliciting
        dsimp only
        split
        · exact ⟨0, Nat.zero_le _, by simp⟩
        · obtain ⟨count, bound, frames, flag⟩ := ih { start with
            frames := start.frames ++ [next]
            payloadSize := start.payloadSize + next.encodedSize
            ackEliciting := true
            probesPending := if congestion.canSend (start.payloadSize + next.encodedSize + 64) then
              start.probesPending else start.probesPending - 1 }
          exact ⟨count + 1, Nat.succ_le_succ bound, by simp [frames], by simp [flag, eliciting]⟩
      · rename_i plain
        obtain ⟨count, bound, frames, flag⟩ := ih { start with
          frames := start.frames ++ [next], payloadSize := start.payloadSize + next.encodedSize }
        exact ⟨count + 1, Nat.succ_le_succ bound, by simp [frames], by simp [flag, Bool.eq_false_iff.mpr plain]⟩

theorem takeDatagrams_quiet (c : Connection) (level : Level) (count : Nat) :
    Quiet c (c.takeDatagrams level count) := by
  unfold takeDatagrams
  split
  · exact ⟨rfl, rfl, rfl, fun _ armed => armed⟩
  · exact .refl c

theorem takeQueued_spec (c : Connection) (level : Level) (count probesPending : Nat) :
    ∃ mid, Quiet c mid ∧ (mid.spaces level).pendingFrames = (c.spaces level).pendingFrames ∧
      c.takeQueued level count probesPending =
        mid.withPending level ((c.spaces level).pendingFrames.drop count) := by
  refine ⟨(c.setSpace level { c.spaces level with probesPending }).takeDatagrams level
    (count - (c.spaces level).pendingFrames.length), ?_, ?_, ?_⟩
  · refine Quiet.trans ?_ (takeDatagrams_quiet _ _ _)
    exact Quiet.setSpace c rfl rfl rfl rfl id
  · unfold takeDatagrams
    split <;> simp
  · unfold takeQueued takeDatagrams withPending
    split
    · simp [setSpace, Function.update_idem]
    · simp [setSpace, Function.update_idem]

theorem filter_take_sendQueue (c : Connection) (level : Level) (count : Nat) :
    ((c.sendQueue level).take count).filter Frame.isRetransmittable =
      ((c.spaces level).pendingFrames.take count).filter Frame.isRetransmittable := by
  unfold sendQueue
  rw [take_append, filter_append, append_right_eq_self, filter_eq_nil_iff]
  intro frame member
  have queued := mem_of_mem_take member
  split at queued
  · obtain ⟨data, -, rfl⟩ := mem_map.mp queued
    exact Bool.false_ne_true
  · cases queued

theorem mem_sendQueue {frame : Frame} (member : frame ∈ c.sendQueue level) :
    frame ∈ (c.spaces level).pendingFrames ∨
      (level = .application ∧ frame.isDatagram = true) := by
  unfold sendQueue at member
  refine (mem_append.mp member).imp id fun queued => ?_
  split at queued
  · rename_i app
    obtain ⟨data, -, rfl⟩ := mem_map.mp queued
    exact ⟨app, rfl⟩
  · cases queued

theorem withPending_changes (level : Level) (frames : List Frame)
    (held : ∀ frame ∈ frames, frame ∈ (c.spaces level).pendingFrames)
    (kept : ∀ frame ∈ (c.spaces level).pendingFrames, frame.isRetransmittable = true →
      frame ∈ frames) (after : Quiet (c.withPending level frames) d) : Changes rules c d :=
  (Relation.ReflTransGen.single (.shed held kept)).tail (.quiet after)

theorem restorePendingFrame_spec (level : Level) (frames : List Frame) (c : Connection) :
    ∃ mid, Quiet c mid ∧ ∃ restored, frames.foldr (restorePendingFrame level) c =
        mid.withPending level (restored ++ (c.spaces level).pendingFrames) ∧
      (∀ frame ∈ restored, frame ∈ frames ∧ (level = .application → frame.isDatagram = false)) ∧
      (∀ frame ∈ frames, frame.isRetransmittable = true → frame ∈ restored) := by
  induction frames with
  | nil =>
    refine ⟨c, .refl c, [], ?_, (by simp), (by simp)⟩
    exact (setSpace_self c level).symm
  | cons frame rest ih =>
    obtain ⟨mid, quiet, restored, same, held, kept⟩ := ih
    rw [foldr_cons, same]
    unfold restorePendingFrame
    split
    · rename_i data
      refine ⟨{ mid with
        driver.datagrams.pendingFrames := data :: mid.driver.datagrams.pendingFrames
        driver.datagrams.pendingFrameBytes := mid.driver.datagrams.pendingFrameBytes + data.length },
        quiet.trans ⟨rfl, rfl, rfl, fun _ armed => armed⟩, restored, rfl, ?_, ?_⟩
      · exact fun other member => ⟨mem_cons_of_mem _ (held other member).1, (held other member).2⟩
      · intro other member again
        rcases mem_cons.mp member with rfl | member
        · cases again
        · exact kept other member again
    · rename_i other_than
      refine ⟨mid, quiet, frame :: restored, ?_, ?_, ?_⟩
      · unfold withPending
        simp [setSpace, Function.update_idem]
      · intro other member
        rcases mem_cons.mp member with rfl | member
        · refine ⟨mem_cons_self, fun app => Bool.eq_false_iff.mpr fun datagram => ?_⟩
          cases other with
          | datagram data => exact other_than data app rfl
          | _ => cases datagram
        · exact ⟨mem_cons_of_mem _ (held other member).1, (held other member).2⟩
      · intro other member again
        rcases mem_cons.mp member with rfl | member
        · exact mem_cons_self
        · exact mem_cons_of_mem _ (kept other member again)

@[simp] theorem withPending_withPending (c : Connection) (level : Level) (first second : List Frame) :
    (c.withPending level first).withPending level second = c.withPending level second := by
  unfold withPending
  simp [setSpace, Function.update_idem]

theorem ledger_withPending (c : Connection) (level : Level) (frames : List Frame) :
    (c.withPending level frames).ledger =
      { c.ledger with pending := Function.update c.ledger.pending level frames } := by
  unfold withPending
  rw [ledger_setSpace]
  simp only [update_ledger]

theorem levelCanSend_withPending (c : Connection) (level other : Level) (frames : List Frame) :
    (c.withPending level frames).levelCanSend other = c.levelCanSend other := by
  unfold withPending Connection.levelCanSend
  rw [setSpace_spaces]
  split
  · rename_i here
    subst here
    rfl
  · rfl

theorem Quiet.withPending (quiet : Quiet c d) (level : Level) (frames : List Frame) :
    Quiet (c.withPending level frames) (d.withPending level frames) := by
  refine ⟨?_, quiet.receive, quiet.credit, fun other armed => ?_⟩
  · rw [ledger_withPending, ledger_withPending, quiet.ledger]
  · rw [levelCanSend_withPending] at armed ⊢
    exact quiet.armed other armed

theorem commitPacket_quiet (c : Connection) (level : Level) (generated : Option Frame) (size : Nat) :
    Quiet c (c.commitPacket level generated size) := by
  have spent : ∀ path pacing, Quiet c { c with
      driver.path.bytesSent := path, driver.pacing.tokens := pacing } :=
    fun _ _ => ⟨rfl, rfl, rfl, fun _ armed => armed⟩
  unfold commitPacket
  dsimp only
  split
  · exact (spent _ _).trans (Quiet.setSpace _ rfl rfl rfl rfl id)
  · exact spent _ _

/-- A packet taken from the queue is sent, or its frames stay queued. -/
theorem sendPacking_changes {count : Nat}
    {generated : Option Frame} {packing : Packing} {queue : List Frame}
    (armed : c.levelCanSend level = true)
    (frames : packing.frames = generated.toList ++ queue.take count)
    (retransmitted : (queue.take count).filter Frame.isRetransmittable =
      ((c.spaces level).pendingFrames.take count).filter Frame.isRetransmittable)
    (flag : packing.ackEliciting = (queue.take count).any Frame.isAckEliciting)
    (queued : ∀ frame ∈ queue.take count, frame ∈ (c.spaces level).pendingFrames ∨
      (level = .application ∧ frame.isDatagram = true))
    (generates : ∀ frame ∈ generated, frame.isAckEliciting = false) :
    Changes rules c ((c.withPending level ((c.spaces level).pendingFrames.drop count)).sendPacking
      level nowMs seals generated packing).connection := by
  have taken : ∀ frame ∈ (c.spaces level).pendingFrames, frame.isRetransmittable = true →
      frame ∈ (queue.take count).filter Frame.isRetransmittable ∨
        frame ∈ (c.spaces level).pendingFrames.drop count := by
    intro frame member again
    rw [← take_append_drop count (c.spaces level).pendingFrames, mem_append] at member
    refine member.imp (fun early => ?_) id
    rw [retransmitted]
    exact mem_filter.mpr ⟨early, again⟩
  have earlier : ∀ frame ∈ (queue.take count).filter Frame.isRetransmittable,
      frame ∈ (c.spaces level).pendingFrames := by
    intro frame member
    rw [retransmitted] at member
    exact mem_of_mem_take (mem_filter.mp member).1
  have generated_plain : generated.toList.filter Frame.isRetransmittable = [] := by
    refine filter_eq_nil_iff.mpr fun frame member again => ?_
    have := Frame.isAckEliciting_of_isRetransmittable again
    rw [generates frame (Option.mem_toList.mp member)] at this
    contradiction
  have again : packing.frames.filter Frame.isRetransmittable =
      (queue.take count).filter Frame.isRetransmittable := by
    rw [frames, filter_append, generated_plain, nil_append]
  unfold sendPacking
  split
  · -- encoding failed: every queued frame goes back
    obtain ⟨mid, quiet, restored, same, held, kept⟩ := restorePendingFrame_spec level
      (packing.frames.drop generated.toList.length)
      (c.withPending level ((c.spaces level).pendingFrames.drop count))
    rw [frames, drop_left] at same held kept
    rw [Assembled.connection, frames, drop_left, same]
    have restores := quiet.withPending level
      (restored ++ (c.spaces level).pendingFrames.drop count)
    rw [withPending_withPending] at restores
    refine withPending_changes level _ ?_ ?_ (by simpa [withPending] using restores)
    · intro frame member
      rcases mem_append.mp member with back | later
      · obtain ⟨packed, plain⟩ := held frame back
        rcases queued frame packed with pending | ⟨app, datagram⟩
        · exact pending
        · rw [plain app] at datagram
          contradiction
      · exact mem_of_mem_drop later
    · intro frame member again
      rcases taken frame member again with early | later
      · exact mem_append_left _ (kept frame (mem_filter.mp early).1 again)
      · exact mem_append_right _ later
  · -- withheld: what may be sent again goes back
    rw [Assembled.connection, restoreWithheld, again]
    refine withPending_changes level ((queue.take count).filter Frame.isRetransmittable ++
      (c.spaces level).pendingFrames.drop count) ?_ ?_ ?_
    · intro frame member
      rcases mem_append.mp member with back | later
      · exact earlier frame back
      · exact mem_of_mem_drop later
    · intro frame member again
      exact mem_append.mpr (taken frame member again)
    · unfold withPending
      simp only [setSpace_setSpace, setSpace_spaces, if_true]
      exact .refl _
  · rename_i sent packet encoded
    obtain ⟨-, made⟩ := encodePacket_sent encoded
    refine Relation.ReflTransGen.tail ?_ (.quiet (commitPacket_quiet sent level generated _))
    rw [made]
    split
    · refine .single (.transmit armed (?_ : _ = ((c.spaces level).pendingFrames.take count).filter _))
      rw [again, retransmitted]
    · rename_i plain
      rw [Bool.and_true, flag, Bool.not_eq_true, any_eq_false] at plain
      have spendable : (c.withPending level
          ((c.spaces level).pendingFrames.drop count)).levelCanSend level = true := by
        rw [levelCanSend_withPending]
        exact armed
      refine (Relation.ReflTransGen.single (.shed ?_ ?_)).tail (.spend spendable)
      · exact fun frame member => mem_of_mem_drop member
      · intro frame member again
        rcases taken frame member again with early | later
        · exact absurd (Frame.isAckEliciting_of_isRetransmittable again)
            (plain frame (mem_filter.mp early).1)
        · exact later

theorem assemblePacket_changes {generated : Option Frame} (armed : c.levelCanSend level = true)
    (generates : ∀ frame ∈ generated, frame.isAckEliciting = false) (nowMs : Nat)
    (seals : Nat → Nat → Bool) :
    Changes rules c (c.assemblePacket level nowMs seals generated).connection := by
  unfold assemblePacket
  split
  · exact .refl
  · split
    · exact .refl
    · obtain ⟨count, bound, frames, flag⟩ := pack_spec c.congestion (c.packetPayloadBudget level)
        (c.sendQueue level)
        { frames := generated.toList
          payloadSize := (generated.toList.map Frame.encodedSize).sum, ackEliciting := false
          probesPending := (c.spaces level).probesPending, tooLarge := false }
      have packed : (c.packing level generated).frames =
          generated.toList ++ (c.sendQueue level).take count := frames
      have taken : (c.packing level generated).frames.length - generated.toList.length = count := by
        rw [packed, length_append, length_take]
        omega
      rw [taken]
      obtain ⟨mid, quiet, same, made⟩ :=
        takeQueued_spec c level count (c.packing level generated).probesPending
      rw [made, ← same]
      refine quiet.changes.trans (sendPacking_changes (quiet.armed level armed) packed ?_ flag ?_
        generates)
      · rw [same]
        exact filter_take_sendQueue c level count
      · intro frame member
        rw [same]
        exact mem_sendQueue (mem_of_mem_take member)

theorem generateAck_plain
    (generated : c.generateAck level nowMs = .ok frame) : frame.isAckEliciting = false := by
  unfold generateAck AckTracker.buildAckFrame at generated
  dsimp only at generated
  split at generated
  · contradiction
  · split at generated
    · contradiction
    · split at generated
      · cases generated
        rfl
      · contradiction

@[simp] theorem txKeys_setSpace (keys : space.txKeys = (c.spaces level).txKeys) (other : Level) :
    ((c.setSpace level space).spaces other).txKeys = (c.spaces other).txKeys := by
  rw [setSpace_spaces]
  split
  · rename_i here
    rw [here, keys]
  · rfl

@[simp] theorem txKeys_untrack (c : Connection) (level : Level) (packetNumber : Nat)
    (other : Level) :
    ((c.untrack level packetNumber).spaces other).txKeys = (c.spaces other).txKeys :=
  txKeys_setSpace (by rfl) other

@[simp] theorem txKeys_forgetPacket (c : Connection) (level : Level) (packetNumber : Nat)
    (other : Level) :
    ((c.forgetPacket level packetNumber).spaces other).txKeys = (c.spaces other).txKeys :=
  txKeys_setSpace (by rfl) other

@[simp] theorem txKeys_enqueueAll (c : Connection) (level : Level) (frames : List Frame)
    (other : Level) : ((c.enqueueAll level frames).spaces other).txKeys = (c.spaces other).txKeys :=
  txKeys_setSpace (by rfl) other

@[simp] theorem txKeys_withPending (c : Connection) (level : Level) (frames : List Frame)
    (other : Level) : ((c.withPending level frames).spaces other).txKeys = (c.spaces other).txKeys :=
  txKeys_setSpace (by rfl) other

@[simp] theorem txKeys_trackPacket (c : Connection) (level : Level) (frames : List Frame)
    (nowMs size : Nat) (other : Level) :
    ((c.trackPacket level frames nowMs size).spaces other).txKeys = (c.spaces other).txKeys := by
  unfold trackPacket
  exact txKeys_setSpace (by rfl) other

@[simp] theorem txKeys_grantPeerStream (c : Connection) (other : Level) :
    (c.grantPeerStream.spaces other).txKeys = (c.spaces other).txKeys := by
  unfold grantPeerStream
  split
  · exact txKeys_enqueueAll _ _ [_] other
  · rfl

theorem grantPeerStream_setup (c : Connection) : c.grantPeerStream.setup = c.setup := by
  unfold grantPeerStream
  split <;> rfl

@[simp] theorem txKeys_filterPending (c : Connection) (keep : Frame → Bool) (other : Level) :
    ((c.filterPending keep).spaces other).txKeys = (c.spaces other).txKeys :=
  txKeys_setSpace (by rfl) other

/-- Only the discard of a level takes its send keys. -/
theorem Change.armed (change : Change rules c d) (never : ∀ level, ¬ rules.drop c.ledger level)
    (armed : c.levelCanSend level = true) : d.levelCanSend level = true := by
  have keep {next : Connection} (setup : next.setup = c.setup)
      (keys : (next.spaces level).txKeys = (c.spaces level).txKeys) :
      next.levelCanSend level = true := by
    unfold Connection.levelCanSend at armed ⊢
    rw [setup, keys]
    exact armed
  cases change with
  | quiet quiet => exact quiet.armed level armed
  | receive _ only _ => exact only.armed level armed
  | enqueue _ => exact keep rfl (txKeys_enqueueAll c _ _ level)
  | shed _ _ => exact keep rfl (txKeys_setSpace (by rfl) level)
  | touch _ => exact armed
  | append _ _ _ _ => exact armed
  | reset _ _ _ => exact keep rfl (txKeys_filterPending _ _ level)
  | resetAt _ _ _ _ => exact keep rfl (txKeys_filterPending _ _ level)
  | stage =>
    rename_i streamId
    rcases stageOneStreamFrame_cases c streamId with same |
      ⟨stream, -, ⟨chunkSize, -, -, staged⟩ | ⟨-, -, -, staged⟩⟩
    · rw [same]
      exact armed
    · rw [staged]
      exact keep rfl (txKeys_setSpace (by rfl) level)
    · rw [staged]
      exact keep rfl (txKeys_setSpace (by rfl) level)
  | transmit _ _ => exact keep rfl (by simp)
  | spend _ => exact keep rfl (txKeys_setSpace (by rfl) level)
  | acknowledge _ =>
    unfold acknowledgePacket
    split
    · exact keep rfl (txKeys_untrack c _ _ level)
    · exact keep rfl (by simp)
  | lose =>
    unfold losePacket
    split
    · exact keep rfl (txKeys_untrack c _ _ level)
    · exact keep rfl (by simp [requeueLost])
  | drop permitted => exact absurd permitted (never _)
  | migrate _ => exact keep rfl (txKeys_setSpace (by rfl) level)
  | release _ _ => exact armed
  | retire _ _ _ =>
    refine keep (grantPeerStream_setup _) ?_
    rw [retireStream, txKeys_grantPeerStream]
    exact txKeys_filterPending _ _ level

theorem Changes.armed (changes : Changes rules c d)
    (never : ∀ ledger level, ¬ rules.drop ledger level) (armed : c.levelCanSend level = true) :
    d.levelCanSend level = true := by
  induction changes with
  | refl => exact armed
  | tail _ change ih => exact Change.armed change (never _) ih

theorem assembleLoop_changes (nowMs : Nat) (seals : Nat → Nat → Bool) (fuel : Nat)
    (c : Connection) (armed : c.levelCanSend level = true) (ackWanted : Bool)
    (packets : List Packet) :
    Changes rules c (assembleLoop level nowMs seals fuel c ackWanted packets).1 := by
  induction fuel generalizing c ackWanted packets with
  | zero => exact .refl
  | succ fuel ih =>
    rw [assembleLoop]
    split
    · split
      · exact .refl
      · rename_i generated made
        have generates : ∀ frame ∈ generated, frame.isAckEliciting = false := by
          intro frame member
          split at made
          · cases ack : c.generateAck level nowMs with
            | error message => simp [ack, Except.map] at made
            | ok built =>
              simp only [ack, Except.map, Except.ok.injEq] at made
              rw [← made, Option.mem_some_iff] at member
              exact member ▸ generateAck_plain ack
          · cases made
            cases member
        have turn : Changes rules c (c.assemblePacket level nowMs seals generated).connection :=
          assemblePacket_changes armed generates nowMs seals
        have same : Changes { rules with drop := fun _ _ => False } c
            (c.assemblePacket level nowMs seals generated).connection :=
          assemblePacket_changes armed generates nowMs seals
        split
        · rename_i failed
          rw [failed] at turn
          exact turn
        · rename_i finished
          rw [finished] at turn
          exact turn
        · rename_i next packet sent
          rw [sent] at turn
          split
          · exact turn
          · refine turn.trans (ih next ?_ _ _)
            rw [sent] at same
            exact Changes.armed same (fun _ _ => id) armed
    · exact .refl

theorem buildDatagramsForLevel_changes (c : Connection) (level : Level) (nowMs : Nat)
    (seals : Nat → Nat → Bool) (packets : List Packet) :
    Changes rules c (c.buildDatagramsForLevel level nowMs seals packets).1 := by
  unfold buildDatagramsForLevel
  split
  · exact .refl
  · rename_i armed
    have staged : Changes rules c (c.stageLevel level) := stageLevel_changes c level
    have same : Changes { rules with drop := fun _ _ => False } c (c.stageLevel level) :=
      stageLevel_changes c level
    exact staged.trans (assembleLoop_changes nowMs seals _ _
      (Changes.armed same (fun _ _ => id) (by simpa using armed)) _ _)

theorem buildLevels_changes (nowMs : Nat) (seals : Nat → Nat → Bool) (levels : List Level)
    (c : Connection) (packets : List Packet) :
    Changes rules c (buildLevels nowMs seals levels c packets).1 := by
  induction levels generalizing c packets with
  | nil => exact .refl
  | cons level rest ih =>
    have built : Changes rules c (c.buildDatagramsForLevel level nowMs seals packets).1 :=
      buildDatagramsForLevel_changes c level nowMs seals packets
    rw [buildLevels]
    split
    · exact .refl
    · split
      · rename_i failed
        rw [failed] at built
        exact built
      · rename_i finished
        rw [finished] at built
        exact built.trans (ih _ _)

theorem encodePacket_spends
    (armed : c.levelCanSend level = true) (untracked : (ackEliciting && trackGlobalLoss) = false)
    (sent : c.encodePacket level frames ackEliciting nowMs seals maxWireBytes trackGlobalLoss =
      .sent d packet) : Changes rules c d := by
  obtain ⟨-, made⟩ := encodePacket_sent sent
  rw [untracked] at made
  rw [made]
  exact .single (.spend armed)

theorem levelCanSend_of_chosen (chosen : (if c.levelCanSend .application then some Level.application
      else if c.levelCanSend .handshake then some .handshake
      else if c.levelCanSend .initial then some .initial else none) = some level) :
    c.levelCanSend level = true := by
  split at chosen
  · cases chosen
    assumption
  · split at chosen
    · cases chosen
      assumption
    · split at chosen
      · cases chosen
        assumption
      · contradiction

theorem buildCloseDatagram_changes (c : Connection) (clock : Clock) (seals : Nat → Nat → Bool) :
    Changes rules c (c.buildCloseDatagram clock seals).1 := by
  unfold buildCloseDatagram
  split
  · exact .refl
  · dsimp only
    split
    · exact .refl
    · rename_i level chosen
      have armed := levelCanSend_of_chosen chosen
      split
      · exact .refl
      · exact Quiet.changes ⟨rfl, rfl, rfl, fun _ armed => armed⟩
      · rename_i encoded
        exact (encodePacket_spends armed rfl encoded).tail
          (.quiet ⟨rfl, rfl, rfl, fun _ armed => armed⟩)

theorem buildDatagrams_changes (c : Connection) (clock : Clock) (seals : Nat → Nat → Bool) :
    Changes rules c (c.buildDatagrams clock seals).1 := by
  have refilled : Quiet c { c with
      driver.pacing := refillPacing c.driver.pacing clock.nowMs } :=
    ⟨rfl, rfl, rfl, fun _ armed => armed⟩
  unfold buildDatagrams
  dsimp only
  split
  · exact refilled.changes
  · exact refilled.changes
  · exact refilled.changes.trans (buildCloseDatagram_changes _ clock seals)
  · exact refilled.changes.trans (buildLevels_changes _ seals _ _ _)

theorem buildPathControlDatagram_changes (c : Connection) (response : Bool) (controlData : Bytes)
    (nowMs maxWireBytes : Nat) (seals : Nat → Nat → Bool) :
    Changes rules c
      (c.buildPathControlDatagram response controlData nowMs maxWireBytes seals).1 := by
  unfold buildPathControlDatagram
  split
  · exact .refl
  · rename_i able
    simp only [not_or, Option.isNone_iff_eq_none, not_not] at able
    have armed : c.levelCanSend .application = true := by
      unfold Connection.levelCanSend
      rw [Bool.or_eq_true, Option.isSome_iff_ne_none]
      exact .inl able.2.2
    dsimp only
    split
    · exact .refl
    · exact .refl
    · rename_i encoded
      exact encodePacket_spends armed rfl encoded

end SwStack.Quic.Connection
