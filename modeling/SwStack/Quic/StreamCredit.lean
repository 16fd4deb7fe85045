import SwStack.Quic.ReliableReset

/-! Credit for the peer's streams: the range map names exactly the streams retired so far,
the limit counts them, and a stream is retired with both its sides done. -/
namespace SwStack.Quic

open SwStack.Lib List

namespace Connection

variable {c d settled : Connection} {input : Input}

theorem retireStream_limit (c : Connection) (streamId : Nat) :
    (c.retireStream streamId).streamLimits.localMaxStreamsBidi =
      if c.streamLimits.localMaxStreamsBidi < 2 ^ 60
        then c.streamLimits.localMaxStreamsBidi + 1 else c.streamLimits.localMaxStreamsBidi := by
  unfold retireStream grantPeerStream
  split
  · rename_i below
    exact (if_pos below).symm
  · rename_i full
    exact (if_neg full).symm

/-- The ranges and the limit name a list of streams, those retired so far. -/
structure Retired (initial : Nat) (retired : List Nat) (c : Connection) : Prop where
  nodup : retired.Nodup
  gone : ∀ streamId, c.isRetiredPeerBidirectional streamId = true ↔ streamId ∈ retired
  covers : ∀ number, RangeMap.Covers 1 c.retiredPeerBidiRanges number ↔
    ∃ streamId ∈ retired, streamNumber streamId = number
  limit : c.streamLimits.localMaxStreamsBidi = min (initial + retired.length) (max initial (2 ^ 60))

theorem Retired.same (before : Retired initial retired c)
    (same : SameRetired c d) : Retired initial retired d :=
  { nodup := before.nodup
    gone := fun streamId => isRetired_congr same.role same.ranges streamId ▸ before.gone streamId
    covers := fun number => same.ranges ▸ before.covers number
    limit := same.limit.trans before.limit }

theorem Retired.retire (before : Retired initial retired c) (retirement : Retirement c)
    (peer : c.isPeerInitiatedBidirectional streamId = true)
    (live : c.isRetiredPeerBidirectional streamId = false) :
    Retired initial (retired ++ [streamId]) (c.retireStream streamId) := by
  have gone := retireStream_isRetired retirement peer
  refine ⟨?_, fun other => ?_, fun number => ?_, ?_⟩
  · refine nodup_append.mpr ⟨before.nodup, nodup_singleton _, ?_⟩
    rintro other member _ (last : _ ∈ [streamId]) rfl
    rw [mem_singleton.mp last] at member
    exact absurd (live.symm.trans ((before.gone streamId).mpr member)) (by simp)
  · rw [gone other, before.gone other, mem_append, mem_singleton]
  · rw [retireStream_ranges, RangeMap.covers_add retirement.separated (Nat.lt_succ_self _),
      before.covers number]
    simp only [mem_append, mem_singleton]
    constructor
    · rintro (⟨other, member, rfl⟩ | inside)
      · exact ⟨other, .inl member, rfl⟩
      · exact ⟨streamId, .inr rfl, by omega⟩
    · rintro ⟨other, member | rfl, rfl⟩
      · exact .inl ⟨other, member, rfl⟩
      · exact .inr ⟨le_rfl, Nat.lt_succ_self _⟩
  · rw [retireStream_limit, before.limit, length_append, length_singleton]
    split <;> omega

theorem retires_retireStream (different : other ≠ streamId) (stream : SendStream) :
    (c.retireStream streamId).retires other stream = c.retires other stream := by
  have same : (c.retireStream streamId).receiveTerminal other = c.receiveTerminal other := by
    refine receiveTerminal_congr ?_ ?_ <;>
      rw [retireStream_tables, SortedMap.find?_erase, if_neg different]
  unfold Connection.retires
  rw [same]

theorem Retired.retireAll (entries : List (Nat × SendStream))
    (before : Retired initial retired c) (retirement : Retirement c)
    (distinct : entries.Pairwise fun left right => left.1 < right.1)
    (held : ∀ entry ∈ entries, c.sendStreams.find? entry.1 = some entry.2) :
    Retired initial
      (retired ++ (entries.filter fun entry => c.retires entry.1 entry.2).map Prod.fst)
      (c.retireAll entries) := by
  induction entries generalizing c retired with
  | nil => simpa [Connection.retireAll] using before
  | cons entry rest ih =>
    obtain ⟨above, tail⟩ := pairwise_cons.mp distinct
    have present := held entry mem_cons_self
    unfold Connection.retireAll
    rw [foldl_cons, filter_cons]
    split
    · rename_i meets
      have peer : c.isPeerInitiatedBidirectional entry.1 = true := by
        refine retirement.released _ _ present ?_
        simp only [Connection.retires, Bool.and_eq_true] at meets
        exact meets.1.1
      have next := ih (before.retire retirement peer (retirement.sends _ _ present))
        (retirement.retire peer) tail fun other member => by
          rw [retireStream_sendStreams, SortedMap.find?_erase, if_neg (above other member).ne']
          exact held other (mem_cons_of_mem _ member)
      have same : rest.filter (fun other => (c.retireStream entry.1).retires other.1 other.2) =
          rest.filter fun other => c.retires other.1 other.2 :=
        filter_congr fun other member => retires_retireStream (above other member).ne' other.2
      rw [same, append_assoc] at next
      exact next
    · exact ih before retirement tail fun other member =>
        held other (mem_cons_of_mem _ member)

theorem Retired.retireAcknowledged
    (before : Retired initial retired c) (retirement : Retirement c) :
    Retired initial (retired ++
        (c.sendStreams.entries.filter fun entry => c.retires entry.1 entry.2).map Prod.fst)
      c.retireAcknowledgedPeerStreams :=
  (before.retireAll c.sendStreams.entries retirement c.sendStreams.ordered
    fun _ member => SortedMap.find?_of_mem member).same ⟨rfl, rfl, rfl⟩

/-- The driver queues no stream data of its own. -/
def DriverQuiet (input : Input) : Prop :=
  ∀ level frame, input = .queueFrame level frame → frame.isStream = false

theorem perform_freely (retirement : Retirement c) (retire : SendStream → Prop)
    (retires : ∀ settled, c.settled input = some settled →
      MayRetire { quietRules fun _ => True with retire } settled) :
    Changes { quietRules fun _ => True with
      append := fun _ _ _ => True, queue := fun _ => True, retire } c (c.perform input) := by
  refine perform_changes retirement ?_
  constructor
  · exact fun _ _ _ _ => trivial
  · exact fun _ _ => trivial
  · exact fun _ _ _ _ => trivial
  · exact fun _ _ => trivial
  · unfold ReceivePermits
    split <;> intros <;> trivial
  · exact fun _ _ => trivial
  · exact fun _ => trivial
  · exact retires

theorem perform_retirement (retirement : Retirement c) (input : Input) :
    Retirement (c.perform input) :=
  retirement.changes (perform_freely retirement (fun _ => True) fun _ _ _ _ _ _ => trivial)

theorem perform_sameRetired (retirement : Retirement c) (idle : c.settled input = none) :
    SameRetired c (c.perform input) := by
  refine Changes.sameRetired (fun _ => id) (perform_freely retirement (fun _ => False) ?_)
  intro settled found
  rw [idle] at found
  cases found

theorem settled_sameRetired (retirement : Retirement c) (tried : c.settled input = some settled) :
    Retirement settled ∧ SameRetired c settled := by
  have changes : Changes (quietRules fun _ => True) c settled :=
    settled_changes retirement (fun _ _ => trivial) (receivePermits_quietRules _ _) tried
  exact ⟨retirement.changes changes, Changes.sameRetired (fun _ => id) changes⟩

theorem Retired.perform (before : Retired initial retired c)
    (retirement : Retirement c) (input : Input) :
    Retired initial (retired ++ c.retirements input) (c.perform input) := by
  unfold retirements
  cases tried : c.settled input with
  | none => simpa using before.same (perform_sameRetired retirement tried)
  | some settled =>
    obtain ⟨kept, same⟩ := settled_sameRetired retirement tried
    exact ((before.same same).retireAcknowledged kept).same
      (.of_ledger (perform_of_settled tried).ledger)

/-- A raised limit is announced: the frame with it is waiting to be sent. -/
def Announces (before after : Connection) : Prop :=
  after.streamLimits.localMaxStreamsBidi = before.streamLimits.localMaxStreamsBidi ∨
    .maxStreams true after.streamLimits.localMaxStreamsBidi ∈ after.app.pendingFrames

theorem retireAll_announces (entries : List (Nat × SendStream)) (announces : Announces c d) :
    Announces c (d.retireAll entries) := by
  unfold Connection.retireAll
  induction entries generalizing d with
  | nil => exact announces
  | cons entry rest ih =>
    rw [foldl_cons]
    split
    · refine ih ?_
      unfold retireStream grantPeerStream
      split
      · exact .inr (by simp [enqueue, setSpace, app])
      · exact announces.imp id fun waiting => mem_filter.mpr ⟨waiting, rfl⟩
    · exact ih announces

theorem perform_announces (retirement : Retirement c) (input : Input) :
    Announces c (c.perform input) := by
  cases tried : c.settled input with
  | none => exact .inl (perform_sameRetired retirement tried).limit
  | some settled =>
    obtain ⟨-, same⟩ := settled_sameRetired retirement tried
    have ledger := (perform_of_settled tried).ledger
    have limit : (c.perform input).streamLimits.localMaxStreamsBidi = _ :=
      congrArg Ledger.localMaxStreamsBidi ledger
    have pending : (c.perform input).app.pendingFrames = _ :=
      congrArg (fun ledger : Ledger => ledger.pending .application) ledger
    have announces : Announces c (settled.retireAll settled.sendStreams.entries) :=
      retireAll_announces settled.sendStreams.entries (.inl same.limit)
    unfold Announces
    rw [limit, pending]
    exact announces

/-- Send states, STREAM frames and acknowledgements against what was written. -/
structure Accurate (log : Log) (acked : List Frame) (c : Connection) : Prop where
  retirement : Retirement c
  sound : Sound (· ∈ acked) c
  sender : Sender log c
  answered : ∀ frame ∈ acked, Staged log c frame

theorem Staged.of_recorded (sender : Sender log c)
    (member : frame ∈ c.recordedFrames level packetNumber) : Staged log c frame := by
  unfold recordedFrames at member
  split at member
  · rename_i record found
    cases frame with
    | stream streamId offset data fin =>
      exact sender.held.recorded level _ (SortedMap.find?_eq_some_iff.mp found) _ member rfl
    | _ => exact trivial
  · cases member

theorem Accurate.acknowledging (accurate : Accurate log acked c) (input : Input) :
    Accurate log (acked ++ c.ackedFrames input) c := by
  refine ⟨accurate.retirement, accurate.sound.mono fun frame => mem_append_left _,
    accurate.sender, fun frame member => ?_⟩
  rcases mem_append.mp member with old | new
  · exact accurate.answered frame old
  · unfold ackedFrames at new
    split at new
    · split at new
      · obtain ⟨number, -, recorded⟩ := mem_flatMap.mp new
        exact .of_recorded accurate.sender recorded
      · cases new
    · cases new

theorem Accurate.changes (accurate : Accurate log acked c)
    (changes : Changes { quietRules (· ∈ acked) with retire } c d) : Accurate log acked d := by
  have advances : Advances c d := Changes.advances accurate.retirement changes
  refine ⟨accurate.retirement.changes changes, ?_,
    accurate.sender.changes (fun _ _ _ => id) (fun _ => id) accurate.retirement changes,
    fun frame member => (accurate.answered frame member).advance advances⟩
  have sound := accurate.sound
  induction changes with
  | refl => exact sound
  | tail earlier change ih =>
    refine Sound.change ?_ change
    exact ih (Changes.advances accurate.retirement earlier)

theorem Accurate.settling (accurate : Accurate log acked c)
    (tried : c.settled input = some settled) :
    Accurate log (acked ++ c.ackedFrames input) settled := by
  have changes : Changes (quietRules (· ∈ acked ++ c.ackedFrames input)) c settled :=
    settled_changes accurate.retirement (fun frame member => mem_append_right _ member)
      (receivePermits_quietRules _ _) tried
  exact (accurate.acknowledging input).changes changes

theorem Accurate.written_le (accurate : Accurate log acked c)
    (found : c.sendStreams.find? streamId = some stream)
    (fresh : stream.resetQueued = false) (finAcked : stream.finAcked = true) :
    (log streamId).data.length ≤ stream.nextOffset := by
  have live := accurate.retirement.sends streamId stream found
  obtain ⟨frame, known, carries⟩ := (accurate.sound streamId stream found).settled .fin finAcked
  have staged := accurate.answered frame known
  cases frame with
  | stream target offset data last =>
    obtain ⟨rfl, rfl⟩ := carries
    rcases staged.2 with gone | ⟨held, present, within, final⟩
    · exact absurd (live.symm.trans gone) (by simp)
    · cases found.symm.trans present
      exact (final rfl fresh) ▸ within
  | _ => exact absurd carries id

theorem Accurate.quiet (accurate : Accurate log acked c) (quiet : Quiet c d) :
    Accurate log acked d := by
  have changes : Changes { quietRules (· ∈ acked) with retire := fun _ => False } c d :=
    quiet.changes
  exact accurate.changes changes

theorem Accurate.append (accurate : Accurate log acked c) {streamId : Nat}
    (live : c.isRetiredPeerBidirectional streamId = false)
    (open_ : (c.sendStream streamId).finQueued = false)
    (fresh : (c.sendStream streamId).resetQueued = false) (data : Bytes) (fin : Bool) :
    Accurate (log.append streamId data fin) acked
      (c.setSendStream streamId ((c.sendStream streamId).append data fin)) := by
  have appended : Change { quietRules (· ∈ acked) with append := fun _ _ _ => True } c
      (c.setSendStream streamId ((c.sendStream streamId).append data fin)) :=
    .append live open_ fresh trivial
  have opened : (log streamId).fin = false :=
    (accurate.sender.sendStream live).finQueued ▸ open_
  exact ⟨accurate.retirement.change appended, accurate.sound.change appended,
    accurate.sender.append live open_ fresh data fin, fun frame member =>
      ((accurate.answered frame member).append opened data fin).advance
        (advances_append c streamId data fin)⟩

theorem Accurate.perform (accurate : Accurate log acked c) (quiet : DriverQuiet input) :
    Accurate (c.writes log input) (acked ++ c.ackedFrames input) (c.perform input) := by
  have acknowledging := accurate.acknowledging input
  have others (silent : ∀ streamId data fin, input ≠ .sendStreamData streamId data fin) :
      Accurate log (acked ++ c.ackedFrames input) (c.perform input) := by
    have permits : Permits { quietRules (· ∈ acked ++ c.ackedFrames input) with
        retire := fun _ => True } c input := by
      constructor
      · exact fun streamId data fin same => silent streamId data fin same
      · exact fun _ _ => trivial
      · exact fun level frame same data => absurd ((quiet level frame same).symm.trans data) (by simp)
      · exact fun frame member => mem_append_right _ member
      · unfold ReceivePermits
        split <;> intros <;> trivial
      · exact fun _ _ => trivial
      · exact fun _ => trivial
      · exact fun _ _ _ _ _ _ => trivial
    exact acknowledging.changes (perform_changes accurate.retirement permits)
  cases input with
  | sendStreamData streamId data fin =>
    unfold writes perform ackedFrames at *
    rcases sendStreamData_cases accurate.retirement streamId data fin with
      ⟨refused, same⟩ | ⟨accepted, mid, before, live, open_, fresh, after⟩
    · dsimp only
      rw [if_neg refused]
      exact acknowledging.quiet same
    · dsimp only
      rw [if_pos accepted]
      exact ((acknowledging.quiet before).append live open_ fresh data fin).quiet after
  | _ => exact others (by simp)

theorem Accurate.start (setup : Setup) : Accurate (fun _ => .empty) [] (start setup) :=
  { retirement := .start setup
    sound := fun _ _ found => by cases found
    sender := .start setup
    answered := fun _ member => absurd member not_mem_nil }

theorem retirements_eq (retires : streamId ∈ c.retirements input) :
    ∃ settled stream, c.settled input = some settled ∧
      settled.sendStreams.find? streamId = some stream ∧
      settled.retires streamId stream = true := by
  unfold retirements at retires
  split at retires
  · rename_i settled tried
    obtain ⟨entry, member, rfl⟩ := mem_map.mp retires
    obtain ⟨held, meets⟩ := mem_filter.mp member
    exact ⟨settled, entry.2, tried, SortedMap.find?_of_mem held, meets⟩
  · cases retires

end Connection

namespace History

open Connection

variable {h : History}

/-- All that the application asked of a send side is acknowledged: its reset with the
reliable prefix, or all it wrote with the end. -/
def SendDone (h : History) (streamId : Nat) (stream : SendStream) : Prop :=
  if stream.resetQueued then
    h.Acknowledged (Frame.Resets streamId) ∧ (stream.resetAt = true →
      ∀ position < stream.resetReliableSize,
        h.Acknowledged (Frame.Carries streamId (.byte position)))
  else
    (∀ position < (h.written streamId).data.length,
      h.Acknowledged (Frame.Carries streamId (.byte position))) ∧
    (h.written streamId).fin = true ∧ h.Acknowledged (Frame.Carries streamId .fin)

/-- An input retires only streams whose sides are both done. -/
def RetiresDone (h : History) (input : Input) : Prop :=
  ∀ streamId ∈ h.connection.retirements input, ∃ settled stream,
    h.connection.settled input = some settled ∧
    settled.sendStreams.find? streamId = some stream ∧
    settled.receiveTerminal streamId = true ∧ (h.after input).SendDone streamId stream

/-- The range map and the limit count the peer's streams retired so far, of which nothing
is left. -/
structure StreamCredit (setup : Setup) (h : History) : Prop where
  separated : RangeMap.Separated 1 h.connection.retiredPeerBidiRanges
  nodup : h.retired.Nodup
  peers : ∀ streamId ∈ h.retired, h.connection.isPeerInitiatedBidirectional streamId = true
  covers : ∀ number, RangeMap.Covers 1 h.connection.retiredPeerBidiRanges number ↔
    ∃ streamId ∈ h.retired, streamNumber streamId = number
  limit : h.connection.streamLimits.localMaxStreamsBidi =
    min (setup.localParams.initialMaxStreamsBidi + h.retired.length)
      (max setup.localParams.initialMaxStreamsBidi (2 ^ 60))
  gone : ∀ streamId ∈ h.retired, h.connection.receive.Lacks streamId ∧
    h.connection.sendStreams.find? streamId = none

theorem accurate_of_run (setup : Setup) (reached : Run (fun _ input => DriverQuiet input) setup h) :
    Accurate h.written h.acked h.connection := by
  induction reached with
  | refl => exact .start setup
  | next _ quiet stepped ih =>
    cases stepped
    exact ih.perform quiet

theorem retired_of_run (setup : Setup) (reached : Run (fun _ _ => True) setup h) :
    Retirement h.connection ∧
      Retired setup.localParams.initialMaxStreamsBidi h.retired h.connection := by
  induction reached with
  | refl =>
    refine ⟨.start setup, .nil, fun streamId => ?_, fun number => ?_, ?_⟩
    · rw [isRetired_iff RangeMap.Separated.empty]
      exact ⟨fun gone => absurd gone.2 RangeMap.covers_empty, (by intros; contradiction)⟩
    · refine ⟨fun covered => absurd covered RangeMap.covers_empty, ?_⟩
      rintro ⟨_, member, _⟩
      cases member
    · change _ = min (_ + 0) _
      exact (min_eq_left (le_max_left _ _)).symm
  | next _ _ stepped ih =>
    cases stepped
    exact ⟨perform_retirement ih.1 _, ih.2.perform ih.1 _⟩

/-- What a settled stream that meets the retirement test rests on. -/
theorem sendDone_of_retires {settled : Connection} (accurate : Accurate h.written h.acked settled)
    (found : settled.sendStreams.find? streamId = some stream)
    (meets : settled.retires streamId stream = true) (prefixAcked : stream.PrefixAcked) :
    settled.receiveTerminal streamId = true ∧ h.SendDone streamId stream := by
  have sound := accurate.sound streamId stream found
  simp only [Connection.retires, Bool.and_eq_true, Bool.or_eq_true] at meets
  refine ⟨meets.1.2, ?_⟩
  unfold SendDone
  rcases meets.2 with reset | graceful
  · simp only [SendStream.resetTerminal, Bool.and_eq_true] at reset
    rw [if_pos reset.1]
    refine ⟨sound.reset reset.2, fun resetAt position below => ?_⟩
    have answered := prefixAcked resetAt
    rw [SendStream.isRangeAcked_iff sound.apart] at answered
    exact sound.settled (.byte position) (answered position (Nat.zero_le _) (by omega))
  · simp only [SendStream.gracefulTerminal, Bool.and_eq_true, Bool.not_eq_true',
      decide_eq_true_eq] at graceful
    obtain ⟨⟨⟨fresh, finQueued⟩, finAcked⟩, contiguous⟩ := graceful
    rw [if_neg (by simp [fresh])]
    obtain ⟨frame, known, carries⟩ := sound.settled .fin finAcked
    refine ⟨fun position below => ?_, ?_, frame, known, carries⟩
    · -- the acknowledged FIN lies where the writing ends, and all before it is acknowledged
      have whole := accurate.written_le found fresh finAcked
      exact sound.settled (.byte position) (.inl (by omega))
    · exact (accurate.sender.streams streamId stream found).finQueued ▸ finQueued

/-- Stream credit is right in every run, and a raised limit is announced at once. Where each
prefix is acknowledged first, every stream retired next is done on both sides. -/
theorem streamCredit_of_run (setup : Setup) (reached : Run (fun _ _ => True) setup h) :
    h.StreamCredit setup ∧ ∀ input, h.connection.Announces (h.after input).connection ∧
      (Run (fun _ input => DriverQuiet input) setup h → DriverQuiet input →
        PrefixFirst h.connection input → h.RetiresDone input) := by
  obtain ⟨retirement, retired⟩ := retired_of_run setup reached
  have gone : ∀ streamId ∈ h.retired, h.connection.isRetiredPeerBidirectional streamId = true :=
    fun streamId member => (retired.gone streamId).mpr member
  refine ⟨⟨retirement.separated, retired.nodup, fun streamId member => ?_, retired.covers,
    retired.limit, fun streamId member => ⟨retirement.tables streamId (gone streamId member), ?_⟩⟩,
    fun input => ⟨perform_announces retirement input, fun silent quiet first streamId retires => ?_⟩⟩
  · have peer := gone streamId member
    unfold Connection.isRetiredPeerBidirectional at peer
    exact (Bool.and_eq_true _ _ ▸ peer).1
  · cases found : h.connection.sendStreams.find? streamId with
    | none => rfl
    | some stream =>
      exact absurd ((retirement.sends streamId stream found).symm.trans (gone streamId member)) (by simp)
  · have accurate := accurate_of_run setup silent
    obtain ⟨settled, stream, tried, found, meets⟩ := retirements_eq retires
    have after : Accurate h.written (h.acked ++ h.connection.ackedFrames input) settled :=
      accurate.settling tried
    have unwritten : h.connection.writes h.written input = h.written := by
      unfold Connection.settled at tried
      split at tried <;> first | rfl | contradiction
    have known : Accurate (h.after input).written (h.after input).acked settled := by
      change Accurate (h.connection.writes h.written input) _ settled
      rw [unwritten]
      exact after
    exact ⟨settled, stream, tried, found, sendDone_of_retires known found meets
      (first.prefixAcked retirement accurate.sound settled tried streamId stream found meets)⟩

theorem resetSent_reached : Run (fun _ input => DriverQuiet input) (.default .server) resetSent :=
  .next (.next (.next (.next (.next (.next (.next .refl
    (by intro _ _ same; cases same) rfl) (by intro _ _ same; cases same) rfl)
    (by intro _ _ same; cases same) rfl) (by intro _ _ same; cases same) rfl)
    (by intro _ _ same; cases same) rfl) (by intro _ _ same; cases same) rfl)
    (by intro _ _ same; cases same) rfl

theorem streamCredit_bothAck : resetSent.connection.retirements bothAck = [0] ∧
    resetSent.RetiresDone bothAck ∧ (resetSent.after bothAck).StreamCredit (.default .server) := by
  have reached : Run (fun _ _ => True) (.default .server) resetSent :=
    resetSent_reached.weaken fun _ => trivial
  obtain ⟨-, next⟩ := streamCredit_of_run (.default .server) reached
  refine ⟨by decide +kernel, (next bothAck).2 resetSent_reached (by intro _ _ same; cases same)
    prefixFirst_bothAck, ?_⟩
  exact (streamCredit_of_run _ (reached.next trivial rfl)).1

/-- The acknowledgement of a reliable reset alone retires the stream with its prefix out. -/
theorem streamCredit_early : ¬ ∀ setup h, Run (fun _ input => DriverQuiet input) setup h →
    h.StreamCredit setup ∧ ∀ input, DriverQuiet input → h.RetiresDone input := by
  intro claim
  obtain ⟨settled, stream, tried, found, -, done⟩ :=
    (claim _ _ resetSent_reached).2 resetAck (by intro _ _ same; cases same) 0 (by decide +kernel)
  have state : (resetSent.connection.settled resetAck).map (fun c => c.sendStreams.find? 0) =
      some (some { SendStream.empty with
        nextOffset := 3, resetQueued := true, resetAt := true, resetAcked := true
        resetReliableSize := 3, peerCreditPending := true }) := by decide +kernel
  rw [tried, Option.map_some, found, Option.some.injEq, Option.some.injEq] at state
  subst state
  obtain ⟨frame, member, carries⟩ := done.2 rfl 0 (by decide)
  have acked : (resetSent.after resetAck).acked = [.resetStreamAt 0 5 3 3] := by decide +kernel
  rw [acked, mem_singleton] at member
  subst member
  exact carries

end History
end SwStack.Quic
