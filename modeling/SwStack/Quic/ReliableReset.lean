import SwStack.Quic.Settled

/-! The reliable prefix of RESET_STREAM_AT: once promised it is acknowledged or can be sent
again, and its send state stays until all of it is acknowledged. -/
namespace SwStack.Quic

open SwStack.Lib List

/-- The reliable prefix of a stream that has one is acknowledged. -/
def SendStream.PrefixAcked (stream : SendStream) : Prop :=
  stream.resetAt = true → stream.isRangeAcked 0 stream.resetReliableSize = true

namespace Connection

variable {c d : Connection} {rules : Rules} {resets : Bool} {acked : Frame → Prop}
  {streamId reliableSize : Nat}

/-- A promised prefix is on file, or acknowledged. -/
def Keeping (acked : Frame → Prop) (c : Connection) (streamId reliableSize : Nat) : Prop :=
  (∃ stream, c.sendStreams.find? streamId = some stream ∧ stream.resetQueued = true ∧
    stream.resetAt = true ∧ stream.resetReliableSize = reliableSize) ∨
  (c.isRetiredPeerBidirectional streamId = true ∧ ∀ position < reliableSize,
    ∃ frame, acked frame ∧ frame.Carries streamId (.byte position))

theorem Keeping.mono (keeping : Keeping acked c streamId reliableSize)
    (implies : ∀ frame, acked frame → more frame) : Keeping more c streamId reliableSize := by
  refine keeping.imp id fun ⟨gone, known⟩ => ⟨gone, fun position below => ?_⟩
  obtain ⟨frame, answered, carries⟩ := known position below
  exact ⟨frame, implies frame answered, carries⟩

theorem Keeping.map (keeping : Keeping acked c streamId reliableSize)
    (role : d.setup.role = c.setup.role)
    (ranges : d.retiredPeerBidiRanges = c.retiredPeerBidiRanges)
    (sends : ∀ stream, c.sendStreams.find? streamId = some stream → stream.resetQueued = true →
      ∃ later, d.sendStreams.find? streamId = some later ∧ later.resetQueued = true ∧
        later.resetAt = stream.resetAt ∧ later.resetReliableSize = stream.resetReliableSize) :
    Keeping acked d streamId reliableSize := by
  rcases keeping with ⟨stream, found, queued, resetAt, size⟩ | ⟨gone, known⟩
  · obtain ⟨later, held, still, sameAt, sameSize⟩ := sends stream found queued
    exact .inl ⟨later, held, still, sameAt.trans resetAt, sameSize.trans size⟩
  · exact .inr ⟨(isRetired_congr role ranges streamId).trans gone, known⟩

theorem Keeping.same (keeping : Keeping acked c streamId reliableSize)
    (role : d.setup.role = c.setup.role)
    (ranges : d.retiredPeerBidiRanges = c.retiredPeerBidiRanges)
    (sends : d.sendStreams = c.sendStreams) : Keeping acked d streamId reliableSize :=
  keeping.map role ranges fun stream found queued => ⟨stream, sends ▸ found, queued, rfl, rfl⟩

theorem Keeping.ledger (keeping : Keeping acked c streamId reliableSize)
    (ledger : d.ledger = c.ledger) : Keeping acked d streamId reliableSize :=
  keeping.same (congrArg Ledger.role ledger) (congrArg Ledger.retired ledger)
    (congrArg Ledger.sendStreams ledger)

theorem Keeping.insert (keeping : Keeping acked c streamId reliableSize)
    (role : d.setup.role = c.setup.role)
    (ranges : d.retiredPeerBidiRanges = c.retiredPeerBidiRanges)
    (made : d.sendStreams = c.sendStreams.insert target stream)
    (reset : (c.sendStream target).resetQueued = true → stream.resetQueued = true ∧
      stream.resetAt = (c.sendStream target).resetAt ∧
      stream.resetReliableSize = (c.sendStream target).resetReliableSize) :
    Keeping acked d streamId reliableSize := by
  refine keeping.map role ranges fun before found queued => ?_
  rw [made]
  by_cases here : streamId = target
  · subst here
    rw [sendStream_of_found found] at reset
    exact ⟨stream, SortedMap.find?_insert_self _ _ _, reset queued⟩
  · exact ⟨before, by rw [SortedMap.find?_insert, if_neg here, found], queued, rfl, rfl⟩

/-- A reset stream is retired only with its reliable prefix acknowledged. -/
def RetiresSettled (rules : Rules) : Prop := ∀ stream, rules.retire stream → stream.PrefixAcked

theorem Keeping.change (retires : RetiresSettled rules) (retirement : Retirement c)
    (sound : Sound acked c) (keeping : Keeping acked c streamId reliableSize)
    (change : Change rules c d) : Keeping acked d streamId reliableSize := by
  cases change with
  | quiet quiet => exact keeping.ledger quiet.ledger
  | receive _ only _ => exact keeping.ledger only.ledger
  | enqueue _ | shed _ _ | transmit _ _ | spend _ | migrate _ => exact keeping.same rfl rfl rfl
  | touch live => exact keeping.insert rfl rfl rfl fun queued => ⟨queued, rfl, rfl⟩
  | append live open_ unreset permitted =>
    exact keeping.insert rfl rfl rfl fun queued => absurd (unreset.symm.trans queued) (by simp)
  | reset live unreset permitted =>
    exact keeping.insert rfl rfl rfl fun queued => absurd (unreset.symm.trans queued) (by simp)
  | resetAt live unreset within permitted =>
    exact keeping.insert rfl rfl rfl fun queued => absurd (unreset.symm.trans queued) (by simp)
  | stage =>
    rename_i target
    rcases stageOneStreamFrame_cases c target with same |
      ⟨stream, found, ⟨chunkSize, -, -, staged⟩ | ⟨-, -, -, staged⟩⟩
    · rw [same]
      exact keeping
    all_goals
      rw [staged]
      refine keeping.insert rfl rfl rfl fun queued => ?_
      rw [sendStream_of_found found] at queued ⊢
      exact ⟨queued, rfl, rfl⟩
  | acknowledge permitted =>
    rename_i level packetNumber
    obtain ⟨role, ranges, -⟩ :=
      acknowledgePacket_same (c.untrack level packetNumber) level packetNumber
    refine keeping.map role ranges fun stream found queued => ?_
    obtain ⟨frames, answered⟩ :=
      acknowledgePacket_sends (c.untrack level packetNumber) level packetNumber streamId
    have same := SendStream.foldl_answered_same streamId frames stream
    exact ⟨_, answered.trans (congrArg (Option.map _) found), same.resetQueued.trans queued,
      same.resetAt, same.resetReliableSize⟩
  | lose =>
    rename_i level nowMs packetNumber span
    obtain ⟨role, ranges, -, sends⟩ :=
      losePacket_same (c.untrack level packetNumber, span) level nowMs packetNumber
    exact keeping.same role ranges sends
  | drop _ =>
    unfold dropLevelKeys
    split <;> exact keeping.same rfl rfl rfl
  | release found peer =>
    exact keeping.insert rfl rfl rfl fun queued => ⟨queued, rfl, rfl⟩
  | retire found meets permitted =>
    rename_i stream target
    have peer : c.isPeerInitiatedBidirectional target = true := by
      refine retirement.released _ _ found ?_
      simp only [Connection.retires, Bool.and_eq_true] at meets
      exact meets.1.1
    have gone := retireStream_isRetired retirement peer
    rcases keeping with ⟨held, present, queued, resetAt, rfl⟩ | ⟨retired, known⟩
    · by_cases here : streamId = target
      · subst here
        cases found.symm.trans present
        refine .inr ⟨(gone streamId).mpr (.inr rfl), fun position below => ?_⟩
        have prefixAcked := retires stream permitted resetAt
        have knows := sound streamId stream found
        rw [SendStream.isRangeAcked_iff knows.apart] at prefixAcked
        exact knows.settled (.byte position) (prefixAcked position (Nat.zero_le _) (by omega))
      · refine .inl ⟨held, ?_, queued, resetAt, rfl⟩
        rw [retireStream_sendStreams, SortedMap.find?_erase, if_neg here, present]
    · exact .inr ⟨(gone streamId).mpr (.inl retired), known⟩

theorem Keeping.changes (retires : RetiresSettled rules) (keeps : KeepsData resets rules)
    (delivers : Delivers resets rules.acknowledged c)
    (keeping : Keeping rules.acknowledged c streamId reliableSize) (changes : Changes rules c d) :
    Keeping rules.acknowledged d streamId reliableSize := by
  induction changes with
  | refl => exact keeping
  | tail earlier change ih =>
    have before := delivers.changes keeps earlier
    exact ih.change retires before.retirement before.sound change

theorem keeping_resetStreamAt (acked : Frame → Prop) (errorCode : Nat)
    (accepted : (c.resetStreamAt streamId errorCode reliableSize).2 = none) :
    Keeping acked (c.resetStreamAt streamId errorCode reliableSize).1 streamId reliableSize := by
  unfold resetStreamAt at accepted ⊢
  split at accepted
  · contradiction
  · rename_i opened
    rw [if_neg opened]
    split at accepted
    · contradiction
    · rename_i negotiated
      rw [if_neg negotiated]
      generalize c.validateSendStreamState streamId = validated at accepted ⊢
      rcases validated with ⟨mid, _ | message⟩
      · dsimp only at accepted ⊢
        split at accepted
        · rename_i queued
          rw [if_pos queued]
          split at accepted
          · rename_i same
            rw [if_pos same]
            refine .inl ⟨mid.sendStream streamId, ?_, queued, same.1, same.2⟩
            unfold Connection.sendStream at queued ⊢
            cases found : mid.sendStreams.find? streamId with
            | none =>
              rw [found] at queued
              exact absurd queued Bool.false_ne_true
            | some stream => rfl
          · contradiction
        · rename_i fresh
          rw [if_neg fresh]
          split at accepted
          · contradiction
          · rename_i covered
            rw [if_neg covered]
            exact .inl ⟨_, SortedMap.find?_insert_self _ _ _, rfl, rfl, rfl⟩
      · contradiction

/-- No input that retires streams finds the reset of a reliable prefix acknowledged, the stream
released and its receive side ended, before all of the prefix is acknowledged. -/
def PrefixFirst (c : Connection) (input : Input) : Prop :=
  c.settled input ≠ none → ∀ streamId stream, c.sendStreams.find? streamId = some stream →
    stream.resetAt = true →
    stream.peerCreditPending = true ∨ input = .releasePeerBidirectionalStream streamId →
    c.receiveTerminal streamId = true ∨ c.endsReceive streamId input = true →
    stream.resetAcked = true ∨ (∃ frame ∈ c.ackedFrames input, frame.Resets streamId) →
    ∀ position < stream.resetReliableSize, stream.Acked position ∨
      ∃ frame ∈ c.ackedFrames input, frame.Carries streamId (.byte position)

theorem PrefixFirst.prefixAcked (first : PrefixFirst c input) (retirement : Retirement c)
    (sound : Sound acked c) : ∀ settled, c.settled input = some settled → ∀ streamId stream,
      settled.sendStreams.find? streamId = some stream →
      settled.retires streamId stream = true → stream.PrefixAcked := by
  intro settled tried streamId stream found meets resetAt
  obtain ⟨before, pending, frames, present, members, rfl, released⟩ := settled_stream tried found
  have apart := (sound streamId before present).apart
  obtain ⟨apart', answered, reset⟩ := SendStream.foldl_answered_settled apart streamId frames
  have same := SendStream.foldl_answered_same streamId frames before
  simp only [members] at answered reset
  simp only [Connection.retires, Bool.and_eq_true, Bool.or_eq_true] at meets
  obtain ⟨⟨waits, ended⟩, terminal⟩ := meets
  have plain : before.resetAt = true := same.resetAt.symm.trans resetAt
  have queued : before.resetQueued = true := (sound streamId before present).resetQueued plain
  have resetAcked : (frames.foldl (SendStream.answered streamId) before).resetAcked = true := by
    rcases terminal with reset | graceful
    · exact (Bool.and_eq_true _ _ ▸ reset).2
    · simp [SendStream.gracefulTerminal, same.resetQueued, queued] at graceful
  refine (SendStream.isRangeAcked_iff apart' _ _).mpr fun position _ below => ?_
  refine (answered (.byte position)).mpr
    (first (by simp [tried]) streamId before present plain (released waits)
      (settled_terminal retirement tried ended) (reset.mp resetAcked) position ?_)
  rw [same.resetReliableSize] at below
  omega

end Connection

namespace History

open Connection

variable {h : History}

/-- Every prefix promised by an accepted `resetStreamAt` is acknowledged or can be sent
again, and all of it is acknowledged before the send state goes. -/
def KeepsPromises (h : History) : Prop :=
  ∀ streamId reliableSize, (streamId, reliableSize) ∈ h.promises →
    (∀ position < reliableSize,
      h.Acknowledged (Frame.Carries streamId (.byte position)) ∨
        h.connection.Outstanding fun frame => frame.Carries streamId (.byte position) ∧
          h.connection.shouldRetransmitFrame frame = true) ∧
    (h.connection.sendStreams.find? streamId = none → ∀ position < reliableSize,
      h.Acknowledged (Frame.Carries streamId (.byte position)))

theorem keeping_of_run (setup : Setup)
    (reached : Run (fun c input => KeepsOwed true c input ∧ PrefixFirst c input) setup h) :
    Delivers true (· ∈ h.acked) h.connection ∧ ∀ streamId reliableSize,
      (streamId, reliableSize) ∈ h.promises →
        Keeping (· ∈ h.acked) h.connection streamId reliableSize := by
  induction reached with
  | refl => exact ⟨.start setup _, fun _ _ member => absurd member not_mem_nil⟩
  | @next before input _ _ allowed stepped ih =>
    cases stepped
    obtain ⟨delivers, keeping⟩ := ih
    obtain ⟨keeps, first⟩ := allowed
    have retires := first.prefixAcked delivers.retirement delivers.sound
    have settled : Permits (deliveryRules true
        (· ∈ before.acked ++ before.connection.ackedFrames input) SendStream.PrefixAcked)
        before.connection input := keeps.permits retires
    refine ⟨delivers.perform _ keeps retires, fun streamId reliableSize member => ?_⟩
    rcases mem_append.mp member with old | new
    · have grown : Delivers true (· ∈ before.acked ++ before.connection.ackedFrames input)
          before.connection :=
        ⟨delivers.retirement, delivers.numbered,
          delivers.sound.mono fun frame held => mem_append_left _ held, delivers.covered⟩
      exact Keeping.changes (fun _ => id) ⟨fun _ _ => id, fun _ => id⟩ grown
        ((keeping streamId reliableSize old).mono fun frame held => mem_append_left _ held)
        (perform_changes delivers.retirement settled)
    · unfold Connection.promised at new
      split at new
      · split at new
        · cases mem_singleton.mp new
          exact keeping_resetStreamAt _ _ ‹_›
        · cases new
      · cases new

/-- Promises are kept in every run that keeps the application keys, migrates only when
nothing that matters is out, and has each prefix acknowledged before a reset retires its stream. -/
theorem keepsPromises_of_run (setup : Setup)
    (reached : Run (fun c input => KeepsOwed true c input ∧ PrefixFirst c input) setup h) :
    h.KeepsPromises := by
  obtain ⟨delivers, keeping⟩ := keeping_of_run setup reached
  intro streamId reliableSize promised
  rcases keeping streamId reliableSize promised with
    ⟨stream, found, queued, resetAt, rfl⟩ | ⟨gone, known⟩
  · refine ⟨fun position below => ?_, fun absent => ?_⟩
    · have sound := delivers.sound streamId stream found
      have owes : stream.Owes true (.byte position) := by
        simp only [SendStream.Owes, queued, if_true]
        exact ⟨trivial, resetAt, below⟩
      by_cases settled : stream.Settled (.byte position)
      · exact .inl (sound.settled _ settled)
      · refine .inr (((delivers.covered streamId stream found (.byte position) owes).resolve_left
          settled).imp_test fun frame carries => ⟨carries, ?_⟩)
        exact shouldRetransmitFrame_of_owes delivers.retirement found sound.apart owes settled carries
    · exact absurd (absent.symm.trans found) (by simp)
  · exact ⟨fun position below => .inl (known position below), fun _ => known⟩

/-- A server that finished reading resets its side and promises what it sent. -/
def promisedThree : History :=
  ([.setLevelKeys .application ⟨true, 0⟩ ⟨true, 0⟩,
    .processFrame .application .active ⟨10, 1000, 1000, fun _ => 3⟩ (.stream 0 0 [] true),
    .sendStreamData 0 [7, 8, 9] false,
    .buildDatagrams ⟨10, 1000, 1000, fun _ => 3⟩ fun _ _ => true,
    .resetStreamAt 0 5 3] : List Input).foldl after (start (.default .server))

/-- It releases the stream and sends the reset. -/
def resetSent : History :=
  (promisedThree.after (.releasePeerBidirectionalStream 0)).after
    (.buildDatagrams ⟨11, 1000, 1000, fun _ => 3⟩ fun _ _ => true)

/-- The peer has the packet with the reset, and not yet the one with the data. -/
def resetAck : Input :=
  .processFrame .application .active ⟨12, 1000, 1000, fun _ => 3⟩ (.ack 1 0 0 [] none)

theorem keepsOwed_quiet (drops : c.drops input = none) (migrates : c.migrates input = false) :
    KeepsOwed true c input := by
  simp [KeepsOwed, drops, migrates]

theorem quiet_input (drops : c.drops input = none)
    (migrates : c.migrates input = false) (settled : c.settled input = none) :
    KeepsOwed true c input ∧ PrefixFirst c input :=
  ⟨keepsOwed_quiet drops migrates, fun tried => absurd settled tried⟩

/-- The peer has both packets. -/
def bothAck : Input :=
  .processFrame .application .active ⟨12, 1000, 1000, fun _ => 3⟩ (.ack 1 0 1 [] none)

theorem prefixFirst_bothAck : PrefixFirst resetSent.connection bothAck := by
  intro _ streamId stream found _ _ _ _ position below
  have state : resetSent.connection.sendStreams.entries = [(0, { SendStream.empty with
      nextOffset := 3, resetQueued := true, resetAt := true, resetReliableSize := 3
      peerCreditPending := true })] := by decide +kernel
  have member := SortedMap.find?_eq_some_iff.mp found
  rw [state, mem_singleton] at member
  cases member
  exact .inr ⟨.stream 0 0 [7, 8, 9] false, by decide +kernel, rfl, Nat.zero_le _, below⟩

/-- With the data acknowledged as well the stream may go. -/
theorem keepsPromises_bothAck :
    (resetSent.after bothAck).connection.sendStreams.find? 0 = none ∧
      (resetSent.after bothAck).promises = [(0, 3)] ∧ (resetSent.after bothAck).KeepsPromises := by
  refine ⟨by decide +kernel, by decide +kernel, keepsPromises_of_run (.default .server) ?_⟩
  refine .next (.next (.next (.next (.next (.next (.next (.next .refl
    (quiet_input rfl rfl rfl) rfl) (quiet_input rfl rfl rfl) rfl) (quiet_input rfl rfl rfl) rfl)
    (quiet_input rfl rfl rfl) rfl) (quiet_input rfl rfl rfl) rfl) ⟨keepsOwed_quiet rfl rfl, ?_⟩ rfl)
    (quiet_input rfl rfl rfl) rfl) ⟨keepsOwed_quiet rfl rfl, ?_⟩ rfl
  · intro _ streamId stream found _ _ _ acked
    have unacked : (promisedThree.connection.sendStreams.entries.all fun entry =>
        !entry.2.resetAcked) = true := by decide +kernel
    have := all_eq_true.mp unacked _ (SortedMap.find?_eq_some_iff.mp found)
    rcases acked with acked | ⟨_, member, _⟩
    · simp [acked] at this
    · cases member
  · exact prefixFirst_bothAck

/-- Its stream is retired with the promised bytes unacknowledged. -/
theorem keepsPromises_forgotten : ¬ ∀ setup h,
    Run (fun c input => c.drops input ≠ some .application) setup h → h.KeepsPromises := by
  intro claim
  have reached : Run (fun c input => c.drops input ≠ some .application) (.default .server)
      (resetSent.after resetAck) :=
    .next (.next (.next (.next (.next (.next (.next (.next .refl (by decide) rfl) (by decide) rfl)
      (by decide) rfl) (by decide) rfl) (by decide) rfl) (by decide) rfl) (by decide) rfl)
      (by decide) rfl
  have promised : (0, 3) ∈ (resetSent.after resetAck).promises := by decide +kernel
  have retired : (resetSent.after resetAck).connection.sendStreams.find? 0 = none := by decide +kernel
  obtain ⟨frame, member, carries⟩ := (claim _ _ reached 0 3 promised).2 retired 0 (by decide)
  have acked : (resetSent.after resetAck).acked = [.resetStreamAt 0 5 3 3] := by decide +kernel
  rw [acked, mem_singleton] at member
  subst member
  exact carries

end History
end SwStack.Quic
