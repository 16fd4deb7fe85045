import SwStack.Quic.SendChanges

/-! An ACK event and the retirement that follows it, as chains of changes. The code takes
all the packets out of loss recovery first and settles them afterwards; taken out one by
one they end in the same state. -/
namespace SwStack.Quic

open SwStack.Lib List

namespace LossRecovery

theorem takeAcked_sent (sent : SortedMap Nat SentPacket) (largestAcked : Nat)
    (ranges : List (Nat × Nat)) :
    (takeAcked sent largestAcked ranges).1 =
      (takeAcked sent largestAcked ranges).2.foldl SortedMap.erase sent := by
  have walk : ∀ (ranges : List (Nat × Nat)) (state : SortedMap Nat SentPacket × List Nat),
      state.1 = state.2.foldl SortedMap.erase sent →
      let taken := ranges.foldl (fun (state : SortedMap Nat SentPacket × List Nat) range =>
        let acked := (inRange state.1 range).map Prod.fst
        (acked.foldl SortedMap.erase state.1, state.2 ++ acked)) state
      taken.1 = taken.2.foldl SortedMap.erase sent := by
    intro ranges
    induction ranges with
    | nil => exact fun _ same => same
    | cons range rest ih =>
      intro state same
      refine ih _ ?_
      rw [foldl_append, ← same]
  have taken := walk ranges.reverse (sent, []) rfl
  unfold takeAcked
  dsimp only at taken ⊢
  split
  · rw [foldl_append, ← taken]
    rfl
  · exact taken

/-- What an ACK leaves in loss recovery: all but the packets it acknowledges or loses. -/
theorem onAckReceived_sent {loss after : LossRecovery} {largestAcked : Nat}
    {ranges : List (Nat × Nat)} {clock : Clock} {result : AckResult}
    (received : loss.onAckReceived largestAcked ranges clock = .ok (after, result)) :
    after.sent = result.lost.foldl SortedMap.erase
      (result.newlyAcked.foldl SortedMap.erase loss.sent) := by
  have detected : ∀ hasRttSample,
      (onAckReceived.detect loss largestAcked ranges clock hasRttSample).1.sent =
        (onAckReceived.detect loss largestAcked ranges clock hasRttSample).2.lost.foldl
          SortedMap.erase
          ((onAckReceived.detect loss largestAcked ranges clock hasRttSample).2.newlyAcked.foldl
            SortedMap.erase loss.sent) := by
    intro hasRttSample
    unfold onAckReceived.detect
    dsimp only
    rw [← takeAcked_sent]
  unfold onAckReceived at received
  dsimp only at received
  split at received
  · split at received
    · contradiction
    · cases received
      exact detected true
  · cases received
    exact detected loss.hasRttSample

end LossRecovery

namespace Connection

variable {rules : Rules} {c d : Connection}

def withTracked (c : Connection) (level : Level) (sent : SortedMap Nat SentPacket) : Connection :=
  c.setSpace level { c.spaces level with
    loss := { (c.spaces level).loss with sent := sent } }

@[simp] theorem withTracked_withTracked (c : Connection) (level : Level)
    (first second : SortedMap Nat SentPacket) :
    (c.withTracked level first).withTracked level second = c.withTracked level second := by
  unfold withTracked
  simp [setSpace, Function.update_idem]

@[simp] theorem withTracked_tracked (c : Connection) (level : Level)
    (sent : SortedMap Nat SentPacket) : ((c.withTracked level sent).spaces level).loss.sent = sent := by
  simp [withTracked]

@[simp] theorem withTracked_sentPackets (c : Connection) (level : Level)
    (sent : SortedMap Nat SentPacket) :
    ((c.withTracked level sent).spaces level).sentPackets = (c.spaces level).sentPackets := by
  simp [withTracked]

theorem acknowledgePacket_withTracked (c : Connection) (level : Level)
    (sent : SortedMap Nat SentPacket) (packetNumber : Nat) :
    acknowledgePacket level (c.withTracked level sent) packetNumber =
      (acknowledgePacket level c packetNumber).withTracked level sent := by
  unfold acknowledgePacket
  rw [withTracked_sentPackets]
  cases (c.spaces level).sentPackets.find? packetNumber with
  | none => rfl
  | some record => simp [forgetPacket, withTracked, setSpace, Function.update_idem]

theorem losePacket_withTracked (c : Connection) (level : Level) (nowMs : Nat)
    (sent : SortedMap Nat SentPacket) (span : LostSpan) (packetNumber : Nat) :
    losePacket level nowMs (c.withTracked level sent, span) packetNumber =
      ((losePacket level nowMs (c, span) packetNumber).1.withTracked level sent,
        (losePacket level nowMs (c, span) packetNumber).2) := by
  unfold losePacket
  dsimp only
  rw [withTracked_sentPackets]
  cases (c.spaces level).sentPackets.find? packetNumber with
  | none => rfl
  | some record =>
    have same : (c.withTracked level sent).shouldRetransmitFrame = c.shouldRetransmitFrame := rfl
    simp only [requeueLost, same, Prod.mk.injEq, and_true]
    simp [forgetPacket, enqueueAll, withTracked, setSpace, Function.update_idem]

theorem foldl_acknowledge_withTracked (numbers : List Nat) (c : Connection) (level : Level)
    (sent : SortedMap Nat SentPacket) :
    numbers.foldl (acknowledgePacket level) (c.withTracked level sent) =
      (numbers.foldl (acknowledgePacket level) c).withTracked level sent := by
  induction numbers generalizing c with
  | nil => rfl
  | cons number rest ih => rw [foldl_cons, acknowledgePacket_withTracked, ih, foldl_cons]

theorem foldl_lose_withTracked (numbers : List Nat) (c : Connection) (level : Level) (nowMs : Nat)
    (sent : SortedMap Nat SentPacket) (span : LostSpan) :
    numbers.foldl (losePacket level nowMs) (c.withTracked level sent, span) =
      ((numbers.foldl (losePacket level nowMs) (c, span)).1.withTracked level sent,
        (numbers.foldl (losePacket level nowMs) (c, span)).2) := by
  induction numbers generalizing c span with
  | nil => rfl
  | cons number rest ih => rw [foldl_cons, losePacket_withTracked, ih, foldl_cons]

theorem acknowledgePacket_tracked (c : Connection) (level : Level) (packetNumber : Nat) :
    ((acknowledgePacket level c packetNumber).spaces level).loss = (c.spaces level).loss := by
  unfold acknowledgePacket
  split
  · rfl
  · simp [forgetPacket]

theorem acknowledgePacket_record
    (found : ((acknowledgePacket level c packetNumber).spaces level).sentPackets.find? other =
      some record) : (c.spaces level).sentPackets.find? other = some record := by
  unfold acknowledgePacket at found
  split at found
  · exact found
  · simp only [forgetPacket, setSpace_spaces, if_true, SortedMap.find?_erase] at found
    split at found
    · contradiction
    · exact found

theorem losePacket_tracked (state : Connection × LostSpan) (level : Level)
    (nowMs packetNumber : Nat) :
    ((losePacket level nowMs state packetNumber).1.spaces level).loss =
      (state.1.spaces level).loss := by
  unfold losePacket
  split
  · rfl
  · simp [requeueLost, forgetPacket, enqueueAll]

theorem foldl_acknowledge_changes (level : Level) (numbers : List Nat) (c : Connection)
    (acknowledged : ∀ number ∈ numbers, ∀ record,
      (c.spaces level).sentPackets.find? number = some record →
      ∀ frame ∈ record.retransmittable, rules.acknowledged frame) :
    Changes rules c ((numbers.foldl (acknowledgePacket level) c).withTracked level
      (numbers.foldl SortedMap.erase (c.spaces level).loss.sent)) := by
  induction numbers generalizing c with
  | nil =>
    refine Quiet.changes ?_
    exact Quiet.setSpace c rfl rfl rfl rfl id
  | cons number rest ih =>
    have first : Change rules c (acknowledgePacket level (c.untrack level number) number) :=
      .acknowledge (acknowledged number mem_cons_self)
    have later := ih (acknowledgePacket level (c.untrack level number) number)
      fun other member record found => by
        have held := acknowledgePacket_record found
        exact acknowledged other (mem_cons_of_mem _ member) record
          (by simpa [untrack] using held)
    have split : acknowledgePacket level (c.untrack level number) number =
        (acknowledgePacket level c number).withTracked level
          ((c.spaces level).loss.sent.erase number) :=
      acknowledgePacket_withTracked c level _ number
    rw [split, foldl_acknowledge_withTracked, withTracked_withTracked, withTracked_tracked,
      ← split] at later
    exact (Relation.ReflTransGen.single first).trans later

theorem foldl_lose_changes (level : Level) (nowMs : Nat) (numbers : List Nat) (c : Connection)
    (span : LostSpan) :
    Changes rules c ((numbers.foldl (losePacket level nowMs) (c, span)).1.withTracked level
      (numbers.foldl SortedMap.erase (c.spaces level).loss.sent)) := by
  induction numbers generalizing c span with
  | nil =>
    refine Quiet.changes ?_
    exact Quiet.setSpace c rfl rfl rfl rfl id
  | cons number rest ih =>
    have first : Change rules c (losePacket level nowMs (c.untrack level number, span) number).1 :=
      .lose
    have split : losePacket level nowMs (c.untrack level number, span) number =
        ((losePacket level nowMs (c, span) number).1.withTracked level
          ((c.spaces level).loss.sent.erase number), (losePacket level nowMs (c, span) number).2) :=
      losePacket_withTracked c level nowMs _ span number
    have later := ih (losePacket level nowMs (c.untrack level number, span) number).1
      (losePacket level nowMs (c, span) number).2
    rw [split] at first later
    rw [foldl_lose_withTracked, withTracked_withTracked, withTracked_tracked] at later
    exact (Relation.ReflTransGen.single first).trans later

theorem detectPersistentCongestion_quiet (c : Connection) (level : Level) (clock : Clock)
    (span : LostSpan) : Quiet c (detectPersistentCongestion level clock (c, span)) := by
  unfold detectPersistentCongestion
  split
  · exact ⟨rfl, rfl, rfl, fun _ armed => armed⟩
  · exact .refl _

/-- An ACK event up to retirement is made of acknowledged packets, then lost ones. -/
theorem settleAck_changes (tracked : loss.sent = result.lost.foldl SortedMap.erase
      (result.newlyAcked.foldl SortedMap.erase (c.spaces level).loss.sent))
    (acknowledged : ∀ number ∈ result.newlyAcked, ∀ record,
      (c.spaces level).sentPackets.find? number = some record →
      ∀ frame ∈ record.retransmittable, rules.acknowledged frame) :
    Changes rules c (c.settleAck level clock loss result) := by
  -- the state with everything of the ACK but its packets taken out of loss recovery
  obtain ⟨base, baseEq⟩ : ∃ base, base = c.startAck level
    { loss with sent := (c.spaces level).loss.sent } result := ⟨_, rfl⟩
  have quiet : Quiet c base := by
    rw [baseEq]
    have tracking : Quiet c (c.setSpace level { c.spaces level with
        loss := { loss with sent := (c.spaces level).loss.sent }, probesPending := 0 }) :=
      Quiet.setSpace c rfl rfl rfl rfl id
    exact tracking.trans ⟨rfl, rfl, rfl, fun _ armed => armed⟩
  have started : c.startAck level loss result = base.withTracked level loss.sent := by
    rw [baseEq]
    unfold startAck withTracked
    simp [setSpace, Function.update_idem]
  have baseTracked : (base.spaces level).loss.sent = (c.spaces level).loss.sent := by
    simp [baseEq, startAck]
  have baseRecords : (base.spaces level).sentPackets = (c.spaces level).sentPackets := by
    simp [baseEq, startAck]
  have acked : Changes rules base _ := foldl_acknowledge_changes level
    result.newlyAcked base (baseRecords ▸ acknowledged)
  have lost : Changes rules _ _ := foldl_lose_changes level clock.nowMs
    result.lost ((result.newlyAcked.foldl (acknowledgePacket level) base).withTracked level
      (result.newlyAcked.foldl SortedMap.erase (base.spaces level).loss.sent)) ⟨0, 0, 0⟩
  rw [foldl_lose_withTracked, withTracked_withTracked, withTracked_tracked, baseTracked,
    ← tracked] at lost
  rw [baseTracked] at acked
  refine (quiet.changes.trans (acked.trans lost)).tail (.quiet ?_)
  unfold settleAck
  rw [started, foldl_acknowledge_withTracked, foldl_lose_withTracked]
  exact detectPersistentCongestion_quiet _ level clock _

theorem receiveTerminal_congr
    (resets : d.receive.resetStreams.find? streamId = c.receive.resetStreams.find? streamId)
    (streams : d.receive.streams.find? streamId = c.receive.streams.find? streamId) :
    d.receiveTerminal streamId = c.receiveTerminal streamId := by
  simp only [receiveTerminal, SortedMap.contains, resets, streams]

theorem retireAll_changes (entries : List (Nat × SendStream)) (c : Connection)
    (distinct : entries.Pairwise fun left right => left.1 < right.1)
    (held : ∀ entry ∈ entries, c.sendStreams.find? entry.1 = some entry.2)
    (permitted : ∀ entry ∈ entries, c.retires entry.1 entry.2 = true → rules.retire entry.2) :
    Changes rules c (c.retireAll entries) := by
  induction entries generalizing c with
  | nil => exact .refl
  | cons entry rest ih =>
    obtain ⟨above, tail⟩ := pairwise_cons.mp distinct
    have present := held entry mem_cons_self
    unfold retireAll
    rw [foldl_cons]
    split
    · rename_i retires
      refine (Relation.ReflTransGen.single (.retire present retires
        (permitted entry mem_cons_self retires))).trans (ih _ tail ?_ ?_)
      · intro other member
        rw [retireStream_sendStreams, SortedMap.find?_erase, if_neg (above other member).ne']
        exact held other (mem_cons_of_mem _ member)
      · intro other member still
        have different : other.1 ≠ entry.1 := (above other member).ne'
        refine permitted other (mem_cons_of_mem _ member) ?_
        have same : (c.retireStream entry.1).receiveTerminal other.1 = c.receiveTerminal other.1 := by
          refine receiveTerminal_congr ?_ ?_ <;>
            rw [retireStream_tables, SortedMap.find?_erase, if_neg different]
        unfold Connection.retires at still ⊢
        rw [same] at still
        exact still
    · exact ih c tail (fun other member => held other (mem_cons_of_mem _ member))
        fun other member => permitted other (mem_cons_of_mem _ member)

theorem wrapCursor_quiet (c : Connection) : Quiet c c.wrapCursor :=
  ⟨rfl, rfl, rfl, fun _ armed => armed⟩

theorem retireAcknowledgedPeerStreams_changes (c : Connection)
    (permitted : ∀ streamId stream, c.sendStreams.find? streamId = some stream →
      c.retires streamId stream = true → rules.retire stream) :
    Changes rules c c.retireAcknowledgedPeerStreams := by
  refine (retireAll_changes c.sendStreams.entries c c.sendStreams.ordered ?_ ?_).tail
    (.quiet (wrapCursor_quiet _))
  · exact fun entry member => SortedMap.find?_of_mem member
  · exact fun entry member => permitted entry.1 entry.2 (SortedMap.find?_of_mem member)

theorem refreshInFlightFlag_quiet (c : Connection) (level : Level) :
    Quiet c (c.refreshInFlightFlag level) := by
  unfold refreshInFlightFlag
  exact Quiet.setSpace c rfl rfl rfl rfl id

end Connection
end SwStack.Quic

/-! The receive path of one stream as chains of changes: flow control, resets, reassembly
and reads touch only the tables of their stream and queue control frames. -/
namespace SwStack.Quic.Connection

open SwStack.Lib

variable {rules : Rules} {c d : Connection} {streamId : Nat}

/-- A chain of changes to the receive state of a live stream, which it leaves live. -/
structure Receives (rules : Rules) (streamId : Nat) (before after : Connection) : Prop where
  changes : before.isRetiredPeerBidirectional streamId = false → Changes rules before after
  live : before.isRetiredPeerBidirectional streamId = false →
    after.isRetiredPeerBidirectional streamId = false

namespace Receives

theorem refl (c : Connection) : Receives rules streamId c c := ⟨fun _ => .refl, id⟩

theorem trans (left : Receives rules streamId first second)
    (right : Receives rules streamId second third) : Receives rules streamId first third :=
  ⟨fun live => (left.changes live).trans (right.changes (left.live live)),
    fun live => right.live (left.live live)⟩

theorem only (only : ReceiveOnly streamId c d) (permitted : rules.receive c d) :
    Receives rules streamId c d :=
  ⟨fun live => .single (.receive live only permitted),
    fun live => (isRetired_congr (congrArg Ledger.role only.ledger)
      (congrArg Ledger.retired only.ledger) streamId).trans live⟩

theorem quiet (quiet : Quiet c d) : Receives rules streamId c d :=
  ⟨fun _ => quiet.changes, quiet.live⟩

theorem enqueue (c : Connection) (level : Level) (frame : Frame)
    (control : frame.isStream = false) : Receives rules streamId c (c.enqueue level frame) :=
  ⟨fun _ => enqueue_changes c level frame control, id⟩

theorem andThen (first : Receives rules streamId c result.1)
    (second : ∀ d, Receives rules streamId d (next d).1) :
    Receives rules streamId c (andThen result next).1 := by
  unfold Connection.andThen
  split
  · exact first.trans (second _)
  · exact first

end Receives

theorem enforceStreamLimit_quiet (c : Connection) (streamId : Nat) :
    Quiet c (c.enforceStreamLimit streamId).1 := by
  unfold enforceStreamLimit
  repeat' split
  all_goals exact ⟨rfl, rfl, rfl, fun _ armed => armed⟩

theorem enforceStreamLimit_cases (c : Connection) (streamId : Nat) :
    c.enforceStreamLimit streamId = (c, none) ∨
      ∃ d message, c.enforceStreamLimit streamId = (d, some message) ∧ d.setup = c.setup ∧
        d.receive = c.receive ∧ d.connectionFlow = c.connectionFlow ∧
        d.retiredPeerBidiRanges = c.retiredPeerBidiRanges := by
  unfold enforceStreamLimit
  split
  · exact .inl rfl
  · split
    · split
      · exact .inl rfl
      · exact .inr ⟨c, _, rfl, rfl, rfl, rfl, rfl⟩
    · split
      · exact .inr ⟨_, _, rfl, rfl, rfl, rfl, rfl⟩
      · exact .inl rfl

section Flow

variable (flows : ∀ c d, ReceiveOnly streamId c d → d.receive.streams = c.receive.streams →
  rules.receive c d)

include flows

theorem setStreamFlow_receives (c : Connection) (flow : StreamFlowControl) :
    Receives rules streamId c (c.setStreamFlow streamId flow) := by
  have only : ReceiveOnly streamId c (c.setStreamFlow streamId flow) := by
    refine ⟨rfl, ?_, fun _ armed => armed⟩
    constructor <;> intro other different <;> simp [setStreamFlow, SortedMap.find?_insert, different]
  exact .only only (flows _ _ only rfl)

theorem connectionFlow_receives (c : Connection) (flow : ConnectionFlowControl) :
    Receives rules streamId c { c with connectionFlow := flow } := by
  have only : ReceiveOnly streamId c { c with connectionFlow := flow } :=
    ⟨rfl, .refl _ _, fun _ armed => armed⟩
  exact .only only (flows _ _ only rfl)

theorem accountBytes_receives (c : Connection) (offset length : Nat) :
    Receives rules streamId c (c.accountBytes streamId offset length).1 := by
  refine .andThen ?_ fun accounted => ?_
  · unfold accountStream touchStreamFlow
    split <;> exact setStreamFlow_receives flows c _
  · split
    · unfold accountConnection
      split
      · exact connectionFlow_receives flows accounted _
      · exact .refl _
    · exact .refl _

theorem accountFinalSize_receives (c : Connection) (finalSize : Nat) :
    Receives rules streamId c (c.accountFinalSize streamId finalSize).1 := by
  unfold accountFinalSize
  split
  · exact accountBytes_receives flows c _ _
  · exact .refl c

theorem creditFlowControl_receives (c : Connection) (bytes : Nat) :
    Receives rules streamId c (c.creditFlowControl streamId bytes) := by
  have stream : ∀ flow, Receives rules streamId c (c.advertiseStream streamId flow) := by
    intro flow
    unfold advertiseStream
    split
    · exact (setStreamFlow_receives flows c _).trans (.enqueue _ _ _ rfl)
    · exact setStreamFlow_receives flows c _
  have connection : ∀ c flow, Receives rules streamId c (advertiseConnection c flow) := by
    intro c flow
    unfold advertiseConnection
    split
    · exact (connectionFlow_receives flows _ _).trans (.enqueue _ _ _ rfl)
    · exact connectionFlow_receives flows _ _
  exact (stream _).trans (connection _ _)

theorem creditDiscarded_receives (c : Connection) (finalSize : Nat) :
    Receives rules streamId c (c.creditDiscarded streamId finalSize) := by
  unfold creditDiscarded
  split
  · exact creditFlowControl_receives flows c _
  · exact .refl c

theorem tables_receives (c : Connection) (tables : Tables)
    (agree : c.receive.AgreeExcept streamId tables) (streams : tables.streams = c.receive.streams) :
    Receives rules streamId c { c with receive := tables } := by
  have only : ReceiveOnly streamId c { c with receive := tables } :=
    ⟨rfl, agree, fun _ armed => armed⟩
  exact .only only (flows _ _ only streams)

theorem receiveReset_receives (c : Connection) (errorCode finalSize : Nat) :
    Receives rules streamId c (c.receiveReset streamId errorCode finalSize).1 := by
  refine .andThen (.quiet (enforceStreamLimit_quiet c streamId)) fun c => ?_
  have touched : Receives rules streamId c (c.touchStreamFlow streamId) :=
    setStreamFlow_receives flows c _
  split
  · exact touched
  · refine touched.trans (.andThen ?_ fun c => creditDiscarded_receives flows c finalSize)
    refine Receives.trans ?_ (accountFinalSize_receives flows _ finalSize)
    refine tables_receives flows _ _ ?_ rfl
    constructor <;> intro other different <;> simp [SortedMap.find?_insert, different]

theorem scheduleReset_receives (c : Connection) (errorCode finalSize reliableSize : Nat) :
    Receives rules streamId c (c.scheduleReset streamId errorCode finalSize reliableSize) := by
  unfold scheduleReset
  split
  · refine Receives.trans ?_ (creditDiscarded_receives flows _ finalSize)
    refine tables_receives flows _ _ ?_ rfl
    constructor <;> intro other different <;>
      simp [SortedMap.find?_insert, SortedMap.find?_erase, different]
  · refine tables_receives flows _ _ ?_ rfl
    constructor <;> intro other different <;> simp [SortedMap.find?_insert, different]

theorem receiveResetAt_receives (c : Connection) (errorCode finalSize reliableSize : Nat) :
    Receives rules streamId c
      (c.receiveResetAt streamId errorCode finalSize reliableSize).1 := by
  refine .andThen (.quiet (enforceStreamLimit_quiet c streamId)) fun c => ?_
  have touched : Receives rules streamId c (c.touchStreamFlow streamId) :=
    setStreamFlow_receives flows c _
  split
  · exact touched
  · refine touched.trans (.andThen (accountFinalSize_receives flows _ finalSize) fun c => ?_)
    exact scheduleReset_receives flows c errorCode finalSize reliableSize

theorem applyReliableReset_receives (c : Connection) :
    Receives rules streamId c (c.applyReliableReset streamId) := by
  unfold applyReliableReset
  split
  · split
    · refine Receives.trans ?_ (creditDiscarded_receives flows _ _)
      refine Receives.trans ?_ (setStreamFlow_receives flows _ _)
      refine tables_receives flows _ _ ?_ rfl
      constructor <;> intro other different <;>
        simp [SortedMap.find?_insert, SortedMap.find?_erase, different]
    · exact .refl c
  · exact .refl c

end Flow

section Data

variable (data : ∀ c d, ReceiveOnly streamId c d → rules.receive c d)

include data

theorem setStream_receives (c : Connection) (stream : Stream) :
    Receives rules streamId c
      { c with receive.streams := c.receive.streams.insert streamId stream } := by
  have only : ReceiveOnly streamId c
      { c with receive.streams := c.receive.streams.insert streamId stream } := by
    refine ⟨rfl, ?_, fun _ armed => armed⟩
    constructor <;> intro other different <;> simp [SortedMap.find?_insert, different]
  exact .only only (data _ _ only)

theorem processStreamFrame_receives (c : Connection) (offset : Nat) (bytes : Bytes) (fin : Bool) :
    Receives rules streamId c (c.processStreamFrame streamId offset bytes fin).1 := by
  have flows : ∀ c d, ReceiveOnly streamId c d → d.receive.streams = c.receive.streams →
      rules.receive c d := fun c d only _ => data c d only
  unfold processStreamFrame
  split
  · exact .refl c
  · refine .andThen (.quiet (enforceStreamLimit_quiet c streamId)) fun c => ?_
    split
    · exact .refl c
    · refine .andThen (Receives.trans ?_ (accountBytes_receives flows _ _ _)) fun c => ?_
      · unfold establishFinalSize
        split
        · refine tables_receives flows _ _ ?_ rfl
          constructor <;> intro other different <;> simp [SortedMap.find?_insert, different]
        · exact .refl c
      · unfold reassemble
        split <;> exact setStream_receives data c _

theorem consumeStream_receives (c : Connection) :
    Receives rules streamId c (c.consumeStream streamId).1 := by
  have flows : ∀ c d, ReceiveOnly streamId c d → d.receive.streams = c.receive.streams →
      rules.receive c d := fun c d only _ => data c d only
  have read : Receives rules streamId c (c.readContiguous streamId).1 := by
    unfold readContiguous
    split
    · exact setStream_receives data c _
    · exact .refl c
  have credited : ∀ c bytes, Receives rules streamId c (creditRead c streamId bytes) := by
    intro c bytes
    unfold creditRead
    split
    · exact .refl c
    · exact creditFlowControl_receives flows c bytes
  exact (read.trans (credited _ _)).trans (applyReliableReset_receives flows _)

end Data
end SwStack.Quic.Connection
