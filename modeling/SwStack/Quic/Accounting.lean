import SwStack.Quic.Simulation

/-! In-flight accounting: the congestion controller counts the bytes of the recorded packets,
and loss recovery tracks the same packets, as long as no key discard or migration forgets
packets that are still out. -/
namespace SwStack.Quic

open SwStack.Lib

/-- What a recorded packet counts for in the congestion window. -/
def SentRecord.flightBytes (record : SentRecord) : Nat :=
  if record.ackEliciting then record.sentBytes else 0

namespace CongestionControl

@[simp] theorem onPacketAcked_bytesInFlight (control : CongestionControl) (ackedBytes sentTimeMs : Nat) :
    (control.onPacketAcked ackedBytes sentTimeMs).bytesInFlight =
      control.bytesInFlight - ackedBytes := by
  unfold onPacketAcked
  dsimp only
  repeat' split
  all_goals rfl

@[simp] theorem onPacketsLost_bytesInFlight (control : CongestionControl)
    (lostBytes sentTimeMs nowMs : Nat) :
    (control.onPacketsLost lostBytes sentTimeMs nowMs).bytesInFlight =
      control.bytesInFlight - lostBytes := by
  unfold onPacketsLost onCongestionEvent
  split <;> rfl

end CongestionControl

namespace Connection

variable {c d : Connection}

def flightBytes (c : Connection) (level : Level) : Nat :=
  SortedMap.total SentRecord.flightBytes (c.spaces level).sentPackets

def recordedBytes (c : Connection) : Nat :=
  c.flightBytes .initial + c.flightBytes .handshake + c.flightBytes .application

/-- The congestion counter, the records and loss recovery agree, and a level without send
keys has nothing out. -/
structure Accounted (c : Connection) : Prop where
  flight : c.congestion.bytesInFlight = c.recordedBytes
  tracked : ∀ level packetNumber, ((c.spaces level).loss.sent.find? packetNumber).isSome =
    ((c.spaces level).sentPackets.find? packetNumber).isSome
  below : ∀ level packetNumber record,
    (c.spaces level).sentPackets.find? packetNumber = some record →
    packetNumber < (c.spaces level).nextTxPn
  idle : ∀ level, c.levelCanSend level = false → (c.spaces level).sentPackets = ∅

theorem recordedBytes_update (level : Level)
    (others : ∀ other ≠ level, (d.spaces other).sentPackets = (c.spaces other).sentPackets) :
    d.recordedBytes + c.flightBytes level = c.recordedBytes + d.flightBytes level := by
  have same : ∀ other ≠ level, d.flightBytes other = c.flightBytes other := by
    intro other different
    unfold flightBytes
    rw [others other different]
  unfold recordedBytes
  cases level with
  | initial =>
    rw [same .handshake (by simp), same .application (by simp)]
    omega
  | handshake =>
    rw [same .initial (by simp), same .application (by simp)]
    omega
  | application =>
    rw [same .initial (by simp), same .handshake (by simp)]
    omega

/-- The packets that are out are the same. -/
structure SamePackets (before after : Connection) : Prop where
  flight : after.congestion.bytesInFlight = before.congestion.bytesInFlight
  sent : ∀ level, (after.spaces level).sentPackets = (before.spaces level).sentPackets
  tracked : ∀ level, (after.spaces level).loss.sent = (before.spaces level).loss.sent
  next : ∀ level, (before.spaces level).nextTxPn ≤ (after.spaces level).nextTxPn

variable {level : Level}

theorem SamePackets.of_update (spaces : d.spaces = Function.update c.spaces level space)
    (congestion : d.congestion = c.congestion)
    (sent : space.sentPackets = (c.spaces level).sentPackets)
    (tracked : space.loss.sent = (c.spaces level).loss.sent)
    (next : (c.spaces level).nextTxPn ≤ space.nextTxPn) : SamePackets c d := by
  constructor
  · rw [congestion]
  all_goals
    intro other
    rw [spaces, Function.update_apply]
    split
    · rename_i here
      subst here
      assumption
    · rfl

theorem SamePackets.of_ledger (ledger : d.ledger = c.ledger) : SamePackets c d :=
  { flight := congrArg Ledger.bytesInFlight ledger
    sent := fun level => congrFun (congrArg Ledger.sent ledger) level
    tracked := fun level => congrFun (congrArg Ledger.tracked ledger) level
    next := fun level => (congrFun (congrArg Ledger.nextTxPn ledger) level).ge }

theorem Accounted.same (accounted : Accounted c) (same : SamePackets c d)
    (idle : ∀ level, d.levelCanSend level = false → (d.spaces level).sentPackets = ∅) :
    Accounted d := by
  refine ⟨?_, ?_, ?_, idle⟩
  · rw [same.flight, accounted.flight]
    simp only [recordedBytes, flightBytes, same.sent]
  · intro level packetNumber
    rw [same.sent, same.tracked]
    exact accounted.tracked level packetNumber
  · intro level packetNumber record found
    rw [same.sent] at found
    exact (accounted.below level packetNumber record found).trans_le (same.next level)

theorem Accounted.keep (accounted : Accounted c) (same : SamePackets c d)
    (armed : ∀ level, c.levelCanSend level = true → d.levelCanSend level = true) :
    Accounted d := by
  refine accounted.same same fun level disarmed => ?_
  rw [same.sent]
  refine accounted.idle level (Bool.eq_false_iff.mpr fun able => ?_)
  rw [armed level able] at disarmed
  contradiction

/-- A packet leaves the record map of its level, loss recovery and the congestion counter
together. -/
theorem Accounted.settle (accounted : Accounted c) (level : Level)
    (found : (c.spaces level).sentPackets.find? packetNumber = some record)
    (others : ∀ other ≠ level, (d.spaces other).sentPackets = (c.spaces other).sentPackets ∧
      (d.spaces other).loss.sent = (c.spaces other).loss.sent)
    (sent : (d.spaces level).sentPackets = (c.spaces level).sentPackets.erase packetNumber)
    (tracked : (d.spaces level).loss.sent = (c.spaces level).loss.sent.erase packetNumber)
    (next : ∀ other, (d.spaces other).nextTxPn = (c.spaces other).nextTxPn)
    (flight : d.congestion.bytesInFlight = c.congestion.bytesInFlight - record.flightBytes)
    (armed : ∀ level, c.levelCanSend level = true → d.levelCanSend level = true) :
    Accounted d := by
  have lighter : c.flightBytes level = d.flightBytes level + record.flightBytes := by
    unfold flightBytes
    rw [sent]
    exact SortedMap.total_erase _ found
  have moved := recordedBytes_update (d := d) level fun other different =>
    (others other different).1
  constructor
  · rw [flight, accounted.flight]
    omega
  · intro other number
    by_cases here : other = level
    · subst here
      rw [sent, tracked, SortedMap.find?_erase, SortedMap.find?_erase]
      split
      · rfl
      · exact accounted.tracked other number
    · rw [(others other here).1, (others other here).2]
      exact accounted.tracked other number
  · intro other number held present
    rw [next]
    by_cases here : other = level
    · subst here
      rw [sent, SortedMap.find?_erase] at present
      split at present
      · contradiction
      · exact accounted.below other number held present
    · rw [(others other here).1] at present
      exact accounted.below other number held present
  · intro other disarmed
    have before : c.levelCanSend other = false := by
      refine Bool.eq_false_iff.mpr fun able => ?_
      rw [armed other able] at disarmed
      contradiction
    by_cases here : other = level
    · subst here
      rw [accounted.idle other before] at found
      cases found
    · rw [(others other here).1]
      exact accounted.idle other before

theorem Accounted.transmit (accounted : Accounted c)
    (armed : c.levelCanSend level = true) (pending frames : List Frame) (nowMs size : Nat) :
    Accounted ((c.withPending level pending).trackPacket level frames nowMs size) := by
  have fresh : (c.spaces level).sentPackets.find? (c.spaces level).nextTxPn = none := by
    cases held : (c.spaces level).sentPackets.find? (c.spaces level).nextTxPn with
    | none => rfl
    | some record => exact absurd (accounted.below level _ record held) (lt_irrefl _)
  have spaces : ∀ other ≠ level,
      ((c.withPending level pending).trackPacket level frames nowMs size).spaces other =
        c.spaces other := by
    intro other different
    simp [trackPacket, withPending, different]
  have sent : (((c.withPending level pending).trackPacket level frames nowMs size).spaces
      level).sentPackets = (c.spaces level).sentPackets.insert (c.spaces level).nextTxPn
        { retransmittable := frames.filter Frame.isRetransmittable, sentBytes := size
          sentTimeMs := nowMs, ackEliciting := true } := by
    simp [trackPacket, withPending]
  have tracked : (((c.withPending level pending).trackPacket level frames nowMs size).spaces
      level).loss.sent = (c.spaces level).loss.sent.insert (c.spaces level).nextTxPn
        { sentTimeMs := nowMs, ackEliciting := true, sentBytes := size } := by
    simp [trackPacket, withPending, LossRecovery.onPacketSent]
  have next : (((c.withPending level pending).trackPacket level frames nowMs size).spaces
      level).nextTxPn = (c.spaces level).nextTxPn + 1 := by
    simp [trackPacket, withPending]
  constructor
  · have heavier : ((c.withPending level pending).trackPacket level frames nowMs size).flightBytes
        level = c.flightBytes level + size := by
      unfold flightBytes
      rw [sent, SortedMap.total_insert _ _ fresh]
      rfl
    have moved := recordedBytes_update (c := c)
      (d := (c.withPending level pending).trackPacket level frames nowMs size) level
      fun other different => by rw [spaces other different]
    have counted : ((c.withPending level pending).trackPacket level frames nowMs
        size).congestion.bytesInFlight = c.congestion.bytesInFlight + size := rfl
    rw [counted, accounted.flight]
    omega
  · intro other number
    by_cases here : other = level
    · subst here
      rw [sent, tracked, SortedMap.find?_insert, SortedMap.find?_insert]
      split
      · rfl
      · exact accounted.tracked other number
    · rw [spaces other here]
      exact accounted.tracked other number
  · intro other number held present
    by_cases here : other = level
    · subst here
      rw [next]
      rw [sent, SortedMap.find?_insert] at present
      split at present
      · omega
      · have := accounted.below other number held present
        omega
    · rw [spaces other here] at present ⊢
      exact accounted.below other number held present
  · intro other disarmed
    have same : ((c.withPending level pending).trackPacket level frames nowMs size).levelCanSend
        other = c.levelCanSend other := by
      unfold Connection.levelCanSend
      rw [txKeys_trackPacket, txKeys_withPending]
      rfl
    rw [same] at disarmed
    have here : other ≠ level := by
      rintro rfl
      rw [armed] at disarmed
      contradiction
    rw [spaces other here]
    exact accounted.idle other disarmed

theorem untrack_of_absent (absent : (c.spaces level).loss.sent.find? packetNumber = none) :
    c.untrack level packetNumber = c := by
  unfold untrack
  rw [SortedMap.erase_of_absent absent]
  exact setSpace_self c level

theorem Accounted.settled_or_absent (accounted : Accounted c) (level : Level) (packetNumber : Nat) :
    c.untrack level packetNumber = c ∧
        (c.spaces level).sentPackets.find? packetNumber = none ∨
      ∃ record, (c.spaces level).sentPackets.find? packetNumber = some record := by
  cases found : (c.spaces level).sentPackets.find? packetNumber with
  | none =>
    have same := accounted.tracked level packetNumber
    rw [found, Option.isSome_none, Option.isSome_eq_false_iff, Option.isNone_iff_eq_none] at same
    exact .inl ⟨untrack_of_absent same, rfl⟩
  | some record => exact .inr ⟨record, rfl⟩

theorem Accounted.acknowledge (accounted : Accounted c) (level : Level) (packetNumber : Nat)
    (armed : ∀ other, c.levelCanSend other = true →
      (acknowledgePacket level (c.untrack level packetNumber) packetNumber).levelCanSend other =
        true) :
    Accounted (acknowledgePacket level (c.untrack level packetNumber) packetNumber) := by
  rcases accounted.settled_or_absent level packetNumber with ⟨same, absent⟩ | ⟨record, found⟩
  · rw [same, acknowledgePacket, absent]
    exact accounted
  · have made : acknowledgePacket level (c.untrack level packetNumber) packetNumber =
        { (c.untrack level packetNumber).forgetPacket level packetNumber with
          congestion := if record.ackEliciting then
              c.congestion.onPacketAcked record.sentBytes record.sentTimeMs
            else c.congestion
          sendStreams := record.retransmittable.foldl acknowledgeFrame c.sendStreams } := by
      have held : ((c.untrack level packetNumber).spaces level).sentPackets.find? packetNumber =
          some record := by simpa [untrack] using found
      rw [acknowledgePacket, held]
      rfl
    rw [made] at armed ⊢
    refine accounted.settle level found ?_ ?_ ?_ ?_ ?_ armed
    · intro other different
      simp [forgetPacket, untrack, different]
    · simp [forgetPacket, untrack]
    · simp [forgetPacket, untrack]
    · intro other
      by_cases here : other = level
      · subst here
        simp [forgetPacket, untrack]
      · simp [forgetPacket, untrack, here]
    · unfold SentRecord.flightBytes
      dsimp only
      split
      · exact CongestionControl.onPacketAcked_bytesInFlight _ _ _
      · rfl

theorem Accounted.lose (accounted : Accounted c) (level : Level) (nowMs packetNumber : Nat)
    (span : LostSpan)
    (armed : ∀ other, c.levelCanSend other = true →
      (losePacket level nowMs (c.untrack level packetNumber, span) packetNumber).1.levelCanSend
        other = true) :
    Accounted (losePacket level nowMs (c.untrack level packetNumber, span) packetNumber).1 := by
  rcases accounted.settled_or_absent level packetNumber with ⟨same, absent⟩ | ⟨record, found⟩
  · rw [same, losePacket, absent]
    exact accounted
  · have made : (losePacket level nowMs (c.untrack level packetNumber, span) packetNumber).1 =
        (c.untrack level packetNumber).requeueLost level nowMs packetNumber record := by
      have held : ((c.untrack level packetNumber).spaces level).sentPackets.find? packetNumber =
          some record := by simpa [untrack] using found
      rw [losePacket, held]
    rw [made] at armed ⊢
    refine accounted.settle level found ?_ ?_ ?_ ?_ ?_ armed
    · intro other different
      simp [requeueLost, forgetPacket, enqueueAll, untrack, different]
    · simp [requeueLost, forgetPacket, enqueueAll, untrack]
    · simp [requeueLost, forgetPacket, enqueueAll, untrack]
    · intro other
      by_cases here : other = level
      · subst here
        simp [requeueLost, forgetPacket, enqueueAll, untrack]
      · simp [requeueLost, forgetPacket, enqueueAll, untrack, here]
    · unfold SentRecord.flightBytes requeueLost
      dsimp only
      split
      · exact CongestionControl.onPacketsLost_bytesInFlight _ _ _ _
      · rfl

/-- Discarding a level forgets no packet and a new path finds none. -/
structure KeepsPackets (rules : Rules) : Prop where
  drop : ∀ ledger level, rules.drop ledger level → ledger.sent level = ∅
  migrate : ∀ ledger, rules.migrate ledger → ∀ level, ledger.sent level = ∅

theorem SamePackets.trans (left : SamePackets first second)
    (right : SamePackets second third) : SamePackets first third :=
  { flight := right.flight.trans left.flight
    sent := fun level => (right.sent level).trans (left.sent level)
    tracked := fun level => (right.tracked level).trans (left.tracked level)
    next := fun level => (left.next level).trans (right.next level) }

theorem stageOneStreamFrame_samePackets (c : Connection) (streamId : Nat) :
    SamePackets c (c.stageOneStreamFrame streamId).1 := by
  rcases stageOneStreamFrame_cases c streamId with same |
    ⟨stream, -, ⟨chunkSize, -, -, staged⟩ | ⟨-, -, -, staged⟩⟩
  · rw [same]
    exact .of_ledger rfl
  · rw [staged]
    exact .of_update rfl rfl rfl rfl le_rfl
  · rw [staged]
    exact .of_update rfl rfl rfl rfl le_rfl

theorem retireStream_samePackets (c : Connection) (streamId : Nat) :
    SamePackets c (c.retireStream streamId) := by
  have retired : SamePackets c { c.retirePeerBidirectionalState streamId with
      sendStreams := c.sendStreams.erase streamId } := .of_update rfl rfl rfl rfl le_rfl
  unfold retireStream grantPeerStream
  split
  · exact retired.trans (.of_update rfl rfl rfl rfl le_rfl)
  · exact retired

theorem Accounted.nothing_tracked (accounted : Accounted c)
    (empty : (c.spaces level).sentPackets = ∅) : (c.spaces level).loss.sent = ∅ := by
  refine SortedMap.ext_find? fun packetNumber => ?_
  have same := accounted.tracked level packetNumber
  rw [empty] at same
  simpa using same

theorem Accounted.drop (accounted : Accounted c)
    (empty : (c.spaces level).sentPackets = ∅) : Accounted (c.dropLevelKeys level) := by
  have same : SamePackets c (c.dropLevelKeys level) := by
    unfold dropLevelKeys clearSpace
    split <;> exact .of_update rfl rfl empty.symm rfl le_rfl
  refine accounted.same same fun other disarmed => ?_
  rw [same.sent]
  by_cases here : other = level
  · rw [here]
    exact empty
  · refine accounted.idle other (Eq.trans ?_ disarmed)
    unfold dropLevelKeys clearSpace levelCanSend
    split <;> simp only [setSpace_spaces, if_neg here] <;> rfl

theorem Accounted.migrate (accounted : Accounted c)
    (empty : ∀ level, (c.spaces level).sentPackets = ∅) : Accounted c.resetForNewPath := by
  have sent : ∀ level, (c.resetForNewPath.spaces level).sentPackets = ∅ := by
    intro level
    simp only [resetForNewPath, setSpace_spaces]
    split
    · exact empty .application
    · exact empty level
  constructor
  · simp only [recordedBytes, flightBytes, sent]
    rfl
  · intro level packetNumber
    rw [sent]
    simp only [resetForNewPath, setSpace_spaces]
    split
    · rfl
    · rw [accounted.nothing_tracked (empty level)]
      rfl
  · intro level packetNumber record found
    rw [sent] at found
    cases found
  · exact fun level _ => sent level

theorem Accounted.change (keeps : KeepsPackets rules) (accounted : Accounted c)
    (change : Change rules c d) : Accounted d := by
  -- every change but a discard leaves the send keys
  have able : ∀ {next}, Change { rules with drop := fun _ _ => False } c next →
      ∀ level, c.levelCanSend level = true → next.levelCanSend level = true :=
    fun change level armed => Change.armed change (fun _ => id) armed
  cases change with
  | quiet quiet => exact accounted.keep (.of_ledger quiet.ledger) quiet.armed
  | receive _ only _ => exact accounted.keep (.of_ledger only.ledger) only.armed
  | enqueue queued => exact accounted.keep (.of_update rfl rfl rfl rfl le_rfl) (able (.enqueue queued))
  | shed held kept => exact accounted.keep (.of_update rfl rfl rfl rfl le_rfl) (able (.shed held kept))
  | touch live => exact accounted.keep ⟨rfl, fun _ => rfl, fun _ => rfl, fun _ => le_rfl⟩ (able (.touch live))
  | append live fin reset permitted =>
    exact accounted.keep ⟨rfl, fun _ => rfl, fun _ => rfl, fun _ => le_rfl⟩
      (able (.append live fin reset permitted))
  | reset live fresh permitted =>
    exact accounted.keep (.of_update rfl rfl rfl rfl le_rfl) (able (.reset live fresh permitted))
  | resetAt live fresh covered permitted =>
    exact accounted.keep (.of_update rfl rfl rfl rfl le_rfl) (able (.resetAt live fresh covered permitted))
  | stage => exact accounted.keep (stageOneStreamFrame_samePackets c _) (able .stage)
  | transmit armed _ => exact accounted.transmit armed _ _ _ _
  | spend armed =>
    exact accounted.keep (.of_update rfl rfl rfl rfl (Nat.le_succ _)) (able (.spend armed))
  | acknowledge permitted => exact accounted.acknowledge _ _ (able (.acknowledge permitted))
  | lose => exact accounted.lose _ _ _ _ (able .lose)
  | drop permitted => exact accounted.drop (keeps.drop _ _ permitted)
  | migrate permitted => exact accounted.migrate (keeps.migrate _ permitted)
  | release found peer =>
    exact accounted.keep ⟨rfl, fun _ => rfl, fun _ => rfl, fun _ => le_rfl⟩
      (able (.release found peer))
  | retire found retires permitted =>
    exact accounted.keep (retireStream_samePackets c _) (able (.retire found retires permitted))

theorem Accounted.changes (keeps : KeepsPackets rules) (accounted : Accounted c)
    (changes : Changes rules c d) : Accounted d := by
  induction changes with
  | refl => exact accounted
  | tail _ change ih => exact ih.change keeps change

theorem Accounted.start (setup : Setup) : Accounted (start setup) := by
  constructor
  · rfl
  · exact fun _ _ => rfl
  · exact fun _ _ _ found => by cases found
  · exact fun _ _ => rfl

/-- No packet is out of a level that is discarded, and none of any level when a new path
takes over. A level in plaintext mode has no keys that could be discarded. -/
def ForgetsNothing (c : Connection) (input : Input) : Prop :=
  (∀ level, c.drops input = some level → (c.spaces level).sentPackets = ∅ ∧
    (level = .initial → c.setup.plaintextInitialTx = false)) ∧
  (c.migrates input = true → ∀ level, (c.spaces level).sentPackets = ∅)

def accountingRules : Rules :=
  { append := fun _ _ _ => True, queue := fun _ => True, acknowledged := fun _ => True
    receive := fun _ _ => True, retire := fun _ => True
    drop := fun ledger level => ledger.sent level = ∅
    migrate := fun ledger => ∀ level, ledger.sent level = ∅ }

theorem ForgetsNothing.permits (forgets : ForgetsNothing c input) :
    Permits accountingRules c input := by
  constructor
  · exact fun _ _ _ _ => trivial
  · exact fun _ _ => trivial
  · exact fun _ _ _ _ => trivial
  · exact fun _ _ => trivial
  · unfold ReceivePermits
    split <;> intros <;> trivial
  · exact fun level drops => (forgets.1 level drops).1
  · exact forgets.2
  · exact fun _ _ _ _ _ _ => trivial

theorem accounted_of_run (setup : Setup) (reached : Run ForgetsNothing setup c) :
    Retirement c ∧ Accounted c := by
  induction reached with
  | refl => exact ⟨.start setup, .start setup⟩
  | next _ forgets stepped ih =>
    cases stepped
    have changes := perform_changes ih.1 forgets.permits
    exact ⟨ih.1.changes changes, ih.2.changes ⟨fun _ _ => id, fun _ => id⟩ changes⟩

/-- In-flight accounting as the congestion window and the probe timer need it. -/
structure InFlightAccounting (c : Connection) : Prop where
  flight : c.congestion.bytesInFlight = c.recordedBytes
  tracked : ∀ level packetNumber, packetNumber ∈ (c.spaces level).sentPackets.keys ↔
    packetNumber ∈ (c.spaces level).loss.sent.keys
  discarded : ∀ level, c.levelCanSend level = false →
    (c.spaces level).sentPackets = ∅ ∧ ∀ clock, c.spacePtoDeadline clock level = none

theorem levelCanSend_of_drops (forgets : ForgetsNothing c input)
    (drops : c.drops input = some level) : (c.perform input).levelCanSend level = false := by
  have plain := (forgets.1 level drops).2
  have dropped : ∀ c : Connection, (level = .initial → c.setup.plaintextInitialTx = false) →
      (c.dropLevelKeys level).levelCanSend level = false := by
    intro c plain
    have keys : ((c.dropLevelKeys level).spaces level).txKeys = none := by
      unfold dropLevelKeys clearSpace
      split <;> simp
    have setup : (c.dropLevelKeys level).setup = c.setup := by
      unfold dropLevelKeys
      split <;> rfl
    unfold levelCanSend
    rw [keys, setup]
    by_cases initial : level = .initial
    · simp [plain initial]
    · simp [initial]
  unfold Connection.drops at drops
  split at drops
  · cases drops
    exact dropped c plain
  · split at drops
    · rename_i client
      cases drops
      simp only [perform, processFrame, if_pos client]
      exact dropped _ (by simp)
    · contradiction
  · contradiction

/-- In every run that forgets no packet the accounts agree, and a discarded level stays
without packets and without a probe timer. -/
theorem inFlightAccounting_of_run (setup : Setup) (reached : Run ForgetsNothing setup c) :
    InFlightAccounting c ∧ ∀ input level, ForgetsNothing c input → c.drops input = some level →
      (c.perform input).levelCanSend level = false := by
  obtain ⟨-, accounted⟩ := accounted_of_run setup reached
  refine ⟨⟨accounted.flight, fun level packetNumber => ?_, fun level disarmed => ?_⟩, ?_⟩
  · rw [SortedMap.mem_keys, SortedMap.mem_keys, accounted.tracked]
  · have empty := accounted.idle level disarmed
    refine ⟨empty, fun clock => ?_⟩
    unfold spacePtoDeadline
    dsimp only
    rw [empty]
    exact if_pos (Bool.or_eq_true _ _ ▸ .inr rfl)
  · exact fun input level forgets drops => levelCanSend_of_drops forgets drops

/-- A ping is out at the Initial level. -/
def pinged : Connection :=
  ((((start (.default .server)).perform (.setLevelKeys .initial ⟨true, 0⟩ ⟨true, 0⟩)).perform
    (.queueFrame .initial .ping)).perform
      (.buildDatagrams ⟨10, 5, 1000, fun _ => 3⟩ fun _ _ => true))

/-- The ping is acknowledged. -/
def answered : Connection :=
  pinged.perform (.processFrame .initial .active ⟨20, 5, 1000, fun _ => 3⟩ (.ack 0 0 0 [] none))

theorem inFlightAccounting_answered :
    InFlightAccounting (answered.perform (.dropLevelKeys .initial)) ∧
    ∀ input level, ForgetsNothing (answered.perform (.dropLevelKeys .initial)) input →
      (answered.perform (.dropLevelKeys .initial)).drops input = some level →
      ((answered.perform (.dropLevelKeys .initial)).perform input).levelCanSend level = false := by
  refine inFlightAccounting_of_run (.default .server) ?_
  have quiet : ∀ {c : Connection} {input : Input}, c.drops input = none → c.migrates input = false →
      ForgetsNothing c input := by
    intro c input drops migrates
    simp [ForgetsNothing, drops, migrates]
  have forgets : ForgetsNothing answered (.dropLevelKeys .initial) := by
    refine ⟨fun level dropped => ?_, fun migrates => by cases migrates⟩
    cases dropped
    exact ⟨by decide +kernel, fun _ => rfl⟩
  exact .next (.next (.next (.next (.next .refl (quiet rfl rfl) rfl) (quiet rfl rfl) rfl)
    (quiet rfl rfl) rfl) (quiet rfl rfl) rfl) forgets rfl

/-- The bytes of the ping stay in flight when the level is discarded without that. -/
theorem inFlightAccounting_leaks : ¬ ∀ setup c,
    Run (fun c input => c.drops input ≠ some .application) setup c → InFlightAccounting c := by
  intro claim
  have reached : Run (fun c input => c.drops input ≠ some .application) (.default .server)
      (pinged.perform (.dropLevelKeys .initial)) :=
    .next (.next (.next (.next .refl (by decide) rfl) (by decide) rfl) (by decide) rfl) (by decide) rfl
  have flight := (claim _ _ reached).flight
  exact absurd flight (by decide +kernel)

end Connection
end SwStack.Quic
