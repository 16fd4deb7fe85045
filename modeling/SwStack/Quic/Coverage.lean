import SwStack.Quic.Simulation

/-! Reliable sending: what a stream still owes its peer is waiting to be sent or recorded in
a packet that loss recovery tracks, until it is acknowledged. -/
namespace SwStack.Quic

open SwStack.Lib List

/-- A portion of a stream: one of its bytes, or its end. -/
inductive Portion where
  | byte (position : Nat)
  | fin
  deriving DecidableEq

variable {frame : Frame}

namespace Frame

def Carries (streamId : Nat) (portion : Portion) : Frame → Prop
  | .stream target offset data fin => target = streamId ∧ match portion with
    | .byte position => offset ≤ position ∧ position < offset + data.length
    | .fin => fin = true
  | _ => False

/-- A frame that resets a stream. -/
def Resets (streamId : Nat) : Frame → Prop
  | .resetStream target .. | .resetStreamAt target .. => target = streamId
  | _ => False

theorem Carries.isRetransmittable (carries : frame.Carries streamId portion) :
    frame.isRetransmittable = true := by
  cases frame with
  | stream _ _ _ _ => rfl
  | _ => exact absurd carries id

end Frame

variable {before after stream : SendStream} {resets : Bool} {portion : Portion}

namespace SendStream

/-- What the peer must still get. After a reset that is the reliable prefix at most, which
counts when `resets` says so. -/
def Owes (resets : Bool) (stream : SendStream) : Portion → Prop
  | .byte position =>
    if stream.resetQueued then
      resets = true ∧ stream.resetAt = true ∧ position < stream.resetReliableSize
    else position < stream.nextOffset
  | .fin => stream.resetQueued = false ∧ stream.finSent = true

/-- What the stream knows to be acknowledged. -/
def Settled (stream : SendStream) : Portion → Prop
  | .byte position => stream.Acked position
  | .fin => stream.finAcked = true

theorem not_settled_empty (portion : Portion) : ¬ SendStream.empty.Settled portion := by
  cases portion with
  | byte position => exact not_acked_empty position
  | fin => exact Bool.false_ne_true

theorem not_owes_empty (resets : Bool) (portion : Portion) :
    ¬ SendStream.empty.Owes resets portion := by
  cases portion with
  | byte position => exact Nat.not_lt_zero position
  | fin => exact fun owes => Bool.false_ne_true owes.2

theorem SameSent.owes (same : SameSent before after) (owes : after.Owes resets portion) :
    before.Owes resets portion := by
  cases portion with
  | byte position =>
    simpa only [Owes, same.resetQueued, same.resetAt, same.resetReliableSize, same.nextOffset]
      using owes
  | fin => simpa only [Owes, same.resetQueued, same.finSent] using owes

/-- The acknowledgement of a frame settles exactly what it carries. -/
theorem answered_settled (apart : stream.RangesApart) (streamId : Nat) (frame : Frame) :
    (stream.answered streamId frame).RangesApart ∧
      (∀ portion, (stream.answered streamId frame).Settled portion ↔
        stream.Settled portion ∨ frame.Carries streamId portion) ∧
      ((stream.answered streamId frame).resetAcked = true ↔
        stream.resetAcked = true ∨ frame.Resets streamId) := by
  have idle (absent : ∀ portion, ¬ frame.Carries streamId portion)
      (keeps : ¬ frame.Resets streamId) :
      stream.RangesApart ∧ (∀ portion, stream.Settled portion ↔
        stream.Settled portion ∨ frame.Carries streamId portion) ∧
        (stream.resetAcked = true ↔ stream.resetAcked = true ∨ frame.Resets streamId) :=
    ⟨apart, fun portion => (or_iff_left (absent portion)).symm, (or_iff_left keeps).symm⟩
  have reset (answers : frame.Resets streamId) (absent : ∀ portion, ¬ frame.Carries streamId portion) :
      { stream with resetAcked := true }.RangesApart ∧
        (∀ portion, { stream with resetAcked := true }.Settled portion ↔
          stream.Settled portion ∨ frame.Carries streamId portion) ∧
        (true = true ↔ stream.resetAcked = true ∨ frame.Resets streamId) := by
    refine ⟨apart, fun portion => ?_, fun _ => .inr answers, fun _ => rfl⟩
    rw [or_iff_left (absent portion)]
    cases portion <;> rfl
  cases frame with
  | stream target offset data fin =>
    rw [answered]
    split
    · rename_i here
      obtain ⟨kept, acked⟩ := acknowledgeRange_spec apart offset data.length
      refine ⟨kept, fun portion => ?_, ?_⟩
      · cases portion with
        | byte position =>
          refine (acked position).trans (or_congr_right ?_)
          exact ⟨fun inside => ⟨here, inside⟩, fun carries => carries.2⟩
        | fin =>
          refine (Bool.or_eq_true _ _).to_iff.trans (or_congr_right ?_)
          exact ⟨fun finishes => ⟨here, finishes⟩, fun carries => carries.2⟩
      · rw [(acknowledgeRange_same stream offset data.length).2.2]
        exact (or_iff_left id).symm
    · rename_i elsewhere
      exact idle (fun portion carries => elsewhere carries.1) id
  | resetStream target errorCode finalSize =>
    rw [answered]
    split
    · exact reset ‹_› fun _ => id
    · exact idle (fun _ => id) ‹_›
  | resetStreamAt target errorCode finalSize reliableSize =>
    rw [answered]
    split
    · exact reset ‹_› fun _ => id
    · exact idle (fun _ => id) ‹_›
  | _ => exact idle (fun _ => id) id

theorem foldl_answered_settled (apart : stream.RangesApart) (streamId : Nat) (frames : List Frame) :
    (frames.foldl (answered streamId) stream).RangesApart ∧
      (∀ portion, (frames.foldl (answered streamId) stream).Settled portion ↔
        stream.Settled portion ∨ ∃ frame ∈ frames, frame.Carries streamId portion) ∧
      ((frames.foldl (answered streamId) stream).resetAcked = true ↔
        stream.resetAcked = true ∨ ∃ frame ∈ frames, frame.Resets streamId) := by
  induction frames generalizing stream with
  | nil => exact ⟨apart, fun portion => (or_iff_left (by simp)).symm, (or_iff_left (by simp)).symm⟩
  | cons frame rest ih =>
    obtain ⟨firstApart, first, firstReset⟩ := answered_settled apart streamId frame
    obtain ⟨lastApart, last, lastReset⟩ := ih firstApart
    refine ⟨lastApart, fun portion => (last portion).trans ?_, lastReset.trans ?_⟩
    · rw [first portion, or_assoc, exists_mem_cons_iff]
    · rw [firstReset, or_assoc, exists_mem_cons_iff]

theorem not_owes_reset (queued : stream.resetQueued = true)
    (plain : stream.resetAt = false) (resets : Bool) (portion : Portion) :
    ¬ stream.Owes resets portion := by
  cases portion with
  | byte position => simp [Owes, queued, plain]
  | fin => simp [Owes, queued]

end SendStream

namespace Connection

/-- A frame that passes the test is waiting to be sent, or recorded in a packet that can
still be acknowledged or declared lost. -/
def Outstanding (c : Connection) (test : Frame → Prop) : Prop :=
  (∃ frame ∈ c.app.pendingFrames, test frame) ∨
    ∃ packetNumber record, c.app.sentPackets.find? packetNumber = some record ∧
      c.app.loss.sent.contains packetNumber = true ∧ ∃ frame ∈ record.retransmittable, test frame

variable {test : Frame → Prop}

theorem Outstanding.imp_test {c : Connection}
    (outstanding : c.Outstanding test) (implies : ∀ frame, test frame → weaker frame) :
    c.Outstanding weaker := by
  rcases outstanding with ⟨frame, member, tested⟩ | ⟨number, record, found, tracked, frame, carried⟩
  · exact .inl ⟨frame, member, implies frame tested⟩
  · exact .inr ⟨number, record, found, tracked, frame, carried.imp id (implies frame)⟩

/-- What a stream owes is acknowledged or outstanding. -/
def StreamCovered (c : Connection) (resets : Bool) (streamId : Nat) (stream : SendStream) : Prop :=
  ∀ portion, stream.Owes resets portion →
    stream.Settled portion ∨ c.Outstanding (Frame.Carries streamId portion)

/-- What a stream takes for acknowledged was acknowledged. -/
structure StreamSound (acked : Frame → Prop) (streamId : Nat) (stream : SendStream) : Prop where
  apart : stream.RangesApart
  resetQueued : stream.resetAt = true → stream.resetQueued = true
  settled : ∀ portion, stream.Settled portion →
    ∃ frame, acked frame ∧ frame.Carries streamId portion
  reset : stream.resetAcked = true → ∃ frame, acked frame ∧ frame.Resets streamId

def Sound (acked : Frame → Prop) (c : Connection) : Prop :=
  ∀ streamId stream, c.sendStreams.find? streamId = some stream → StreamSound acked streamId stream

variable {c d : Connection} {acked : Frame → Prop} {rules : Rules}

theorem StreamSound.empty (acked : Frame → Prop) (streamId : Nat) :
    StreamSound acked streamId .empty :=
  { apart := SendStream.rangesApart_empty
    resetQueued := by intros; contradiction
    settled := fun portion settled => absurd settled (SendStream.not_settled_empty portion)
    reset := by intros; contradiction }

theorem Sound.sendStream (sound : Sound acked c) (streamId : Nat) :
    StreamSound acked streamId (c.sendStream streamId) := by
  unfold Connection.sendStream
  cases found : c.sendStreams.find? streamId with
  | none => exact .empty acked streamId
  | some stream => exact sound streamId stream found

theorem Sound.same (sound : Sound acked c) (same : d.sendStreams = c.sendStreams) :
    Sound acked d := fun streamId stream found => sound streamId stream (same ▸ found)

variable {streamId : Nat}

theorem Sound.insert (sound : Sound acked c)
    (made : d.sendStreams = c.sendStreams.insert streamId stream)
    (new : StreamSound acked streamId stream) : Sound acked d := by
  intro other held found
  rw [made, SortedMap.find?_insert] at found
  split at found
  · rename_i here
    cases found
    exact here ▸ new
  · exact sound other held found

theorem StreamSound.update (sound : StreamSound acked streamId before)
    (contiguous : after.contiguousAckedOffset = before.contiguousAckedOffset)
    (ranges : after.ackedRanges = before.ackedRanges) (fin : after.finAcked = before.finAcked)
    (reset : after.resetAt = true → after.resetQueued = true)
    (resetAcked : after.resetAcked = true → before.resetAcked = true) :
    StreamSound acked streamId after := by
  refine ⟨?_, reset, fun portion settled => sound.settled portion ?_,
    fun answered => sound.reset (resetAcked answered)⟩
  · unfold SendStream.RangesApart
    rw [ranges]
    exact sound.apart
  · cases portion with
    | byte position =>
      unfold SendStream.Settled SendStream.Acked at settled ⊢
      rw [contiguous, ranges] at settled
      exact settled
    | fin => exact fin.symm.trans settled

theorem compact_knows (stream : SendStream) :
    stream.compact.contiguousAckedOffset = stream.contiguousAckedOffset ∧
      stream.compact.ackedRanges = stream.ackedRanges ∧
      stream.compact.finAcked = stream.finAcked ∧ stream.compact.resetAt = stream.resetAt ∧
      stream.compact.resetQueued = stream.resetQueued ∧
      stream.compact.nextOffset = stream.nextOffset ∧
      stream.compact.resetReliableSize = stream.resetReliableSize ∧
      stream.compact.finSent = stream.finSent ∧ stream.compact.resetAcked = stream.resetAcked := by
  unfold SendStream.compact
  split <;> exact ⟨rfl, rfl, rfl, rfl, rfl, rfl, rfl, rfl, rfl⟩

theorem retireStream_found {other : Nat}
    (found : (c.retireStream streamId).sendStreams.find? other = some stream) :
    other ≠ streamId ∧ c.sendStreams.find? other = some stream := by
  rw [retireStream_sendStreams, SortedMap.find?_erase] at found
  split at found
  · contradiction
  · exact ⟨‹_›, found⟩

theorem Sound.change (sound : Sound rules.acknowledged c) (change : Change rules c d) :
    Sound rules.acknowledged d := by
  cases change with
  | quiet quiet => exact sound.same (congrArg Ledger.sendStreams quiet.ledger)
  | receive _ only _ => exact sound.same (congrArg Ledger.sendStreams only.ledger)
  | enqueue _ | shed _ _ | transmit _ _ | spend _ | migrate _ => exact sound.same rfl
  | touch _ => exact sound.insert rfl (sound.sendStream _)
  | append _ _ _ _ =>
    rename_i streamId data fin _ _ _ _
    obtain ⟨contiguous, ranges, finAcked, resetAt, resetQueued, -, -, -, resetAcked⟩ :=
      compact_knows (c.sendStream streamId)
    have held := sound.sendStream streamId
    refine sound.insert rfl (held.update contiguous ranges finAcked ?_ resetAcked.symm.trans)
    intro reset
    exact resetQueued.trans (held.resetQueued (resetAt.symm.trans reset))
  | reset _ _ _ =>
    refine sound.insert rfl ?_
    exact (sound.sendStream _).update rfl rfl rfl (fun _ => rfl) (by simp)
  | resetAt _ _ _ _ =>
    refine sound.insert rfl ?_
    exact (sound.sendStream _).update rfl rfl rfl (fun _ => rfl) (by simp)
  | stage =>
    rename_i streamId
    rcases stageOneStreamFrame_cases c streamId with same |
      ⟨stream, found, ⟨chunkSize, -, -, staged⟩ | ⟨-, -, -, staged⟩⟩
    · rw [same]
      exact sound
    all_goals
      rw [staged]
      have held := sound streamId stream found
      exact sound.insert rfl (held.update rfl rfl rfl held.resetQueued id)
  | acknowledge permitted =>
    rename_i level packetNumber
    intro streamId stream found
    unfold acknowledgePacket at found
    split at found
    · exact sound streamId stream found
    · rename_i record recorded
      rw [find?_foldl_acknowledgeFrame, Option.map_eq_some_iff] at found
      obtain ⟨held, present, rfl⟩ := found
      have before := sound streamId held present
      have answered : ∀ frame ∈ record.retransmittable, rules.acknowledged frame :=
        permitted record (by simpa [untrack] using recorded)
      obtain ⟨apart, settled, resetAcked⟩ :=
        SendStream.foldl_answered_settled before.apart streamId record.retransmittable
      have same := SendStream.foldl_answered_same streamId record.retransmittable held
      refine ⟨apart, fun reset => ?_, fun portion known => ?_, fun known => ?_⟩
      · exact same.resetQueued.trans (before.resetQueued (same.resetAt.symm.trans reset))
      · rcases (settled portion).mp known with known | ⟨frame, member, carries⟩
        · exact before.settled portion known
        · exact ⟨frame, answered frame member, carries⟩
      · rcases resetAcked.mp known with known | ⟨frame, member, resets⟩
        · exact before.reset known
        · exact ⟨frame, answered frame member, resets⟩
  | lose =>
    rename_i level nowMs packetNumber span
    obtain ⟨-, -, -, sends⟩ :=
      losePacket_same (c.untrack level packetNumber, span) level nowMs packetNumber
    exact sound.same sends
  | drop _ =>
    unfold dropLevelKeys
    split <;> exact sound.same rfl
  | release _ _ =>
    rename_i _ streamId _ _
    have held := sound.sendStream streamId
    exact sound.insert rfl (held.update rfl rfl rfl held.resetQueued id)
  | retire _ _ _ =>
    intro other held found
    exact sound other held (retireStream_found found).2

@[simp] theorem app_setSpace (c : Connection) (level : Level) (space : Space) :
    (c.setSpace level space).app = if level = .application then space else c.app := by
  unfold app
  rw [setSpace_spaces]
  simp only [eq_comm]

theorem app_retirePeerBidirectionalState (c : Connection) (streamId : Nat)
    (sendStreams : SortedMap Nat SendStream) :
    ({ c.retirePeerBidirectionalState streamId with sendStreams } : Connection).app =
      (c.removePendingSendFramesForStream streamId true).app := by
  unfold retirePeerBidirectionalState removePendingSendFramesForStream filterPending app
  dsimp only
  rfl

/-- The packet numbers on record were used before. -/
def Numbered (c : Connection) : Prop :=
  ∀ packetNumber record, c.app.sentPackets.find? packetNumber = some record →
    packetNumber < c.app.nextTxPn

/-- Every stream is covered. -/
def Covered (resets : Bool) (c : Connection) : Prop :=
  ∀ streamId stream, c.sendStreams.find? streamId = some stream →
    c.StreamCovered resets streamId stream

/-- What can be found in `before` can still be found. -/
structure Keeps (test : Frame → Prop) (before after : Connection) : Prop where
  pending : ∀ frame ∈ before.app.pendingFrames, test frame → frame ∈ after.app.pendingFrames
  sent : ∀ packetNumber record, before.app.sentPackets.find? packetNumber = some record →
    after.app.sentPackets.find? packetNumber = some record
  tracked : ∀ packetNumber, before.app.loss.sent.contains packetNumber = true →
    after.app.loss.sent.contains packetNumber = true

theorem Keeps.outstanding (keeps : Keeps test c d)
    (outstanding : c.Outstanding test) : d.Outstanding test := by
  rcases outstanding with ⟨frame, pending, tested⟩ | ⟨packetNumber, record, found, tracked, carried⟩
  · exact .inl ⟨frame, keeps.pending frame pending tested, tested⟩
  · exact .inr ⟨packetNumber, record, keeps.sent _ _ found, keeps.tracked _ tracked, carried⟩

theorem Keeps.of_pending
    (pending : ∀ frame ∈ c.app.pendingFrames, test frame → frame ∈ d.app.pendingFrames)
    (sent : d.app.sentPackets = c.app.sentPackets)
    (tracked : d.app.loss.sent = c.app.loss.sent) : Keeps test c d :=
  { pending
    sent := fun _ _ found => sent ▸ found
    tracked := fun _ held => tracked ▸ held }

theorem Keeps.of_app (same : d.app = c.app) : Keeps test c d :=
  { pending := fun _ member _ => same ▸ member
    sent := fun _ _ found => same ▸ found
    tracked := fun _ tracked => same ▸ tracked }

theorem Numbered.keep (numbered : Numbered c)
    (sent : ∀ packetNumber record, d.app.sentPackets.find? packetNumber = some record →
      c.app.sentPackets.find? packetNumber = some record)
    (next : c.app.nextTxPn ≤ d.app.nextTxPn) : Numbered d :=
  fun packetNumber record found => (numbered packetNumber record (sent _ _ found)).trans_le next

theorem Numbered.same (numbered : Numbered c)
    (sent : d.app.sentPackets = c.app.sentPackets) (next : d.app.nextTxPn = c.app.nextTxPn) :
    Numbered d := numbered.keep (fun _ _ found => sent ▸ found) next.ge

theorem Numbered.ledger (numbered : Numbered c) (ledger : d.ledger = c.ledger) : Numbered d :=
  numbered.same (congrFun (congrArg Ledger.sent ledger) .application)
    (congrFun (congrArg Ledger.nextTxPn ledger) .application)

variable {level : Level}

theorem Numbered.setSpace (numbered : Numbered c) {space : Space}
    (app : d.app = (c.setSpace level space).app)
    (sent : ∀ packetNumber record, space.sentPackets.find? packetNumber = some record →
      (c.spaces level).sentPackets.find? packetNumber = some record)
    (next : (c.spaces level).nextTxPn ≤ space.nextTxPn) : Numbered d := by
  rw [app_setSpace] at app
  split at app
  · rename_i here
    subst here
    exact numbered.keep (fun packetNumber record found => sent _ _ (app ▸ found)) (app ▸ next)
  · exact numbered.same (by rw [app]) (by rw [app])

theorem find?_erase_sub {map : SortedMap Nat α}
    (found : (map.erase erased).find? key = some value) :
    key ≠ erased ∧ map.find? key = some value := by
  rw [SortedMap.find?_erase] at found
  split at found
  · contradiction
  · exact ⟨‹_›, found⟩

theorem Numbered.change (numbered : Numbered c) (change : Change rules c d) : Numbered d := by
  cases change with
  | quiet quiet => exact numbered.ledger quiet.ledger
  | receive _ only _ => exact numbered.ledger only.ledger
  | enqueue _ | shed _ _ => exact numbered.setSpace rfl (fun _ _ => id) le_rfl
  | touch _ | append _ _ _ _ | release _ _ => exact numbered
  | reset _ _ _ | resetAt _ _ _ _ | migrate _ => exact numbered.same rfl rfl
  | stage =>
    rename_i streamId
    rcases stageOneStreamFrame_cases c streamId with same |
      ⟨stream, -, ⟨chunkSize, -, -, staged⟩ | ⟨-, -, -, staged⟩⟩
    · rw [same]
      exact numbered
    all_goals
      rw [staged]
      exact numbered.same rfl rfl
  | transmit _ _ =>
    rename_i level count frames nowMs size
    unfold trackPacket withPending
    intro packetNumber record found
    unfold app at found ⊢
    simp only [setSpace_spaces] at found ⊢
    split at found
    · rename_i here
      subst here
      simp only [if_true, SortedMap.find?_insert] at found ⊢
      split at found
      · omega
      · exact (numbered packetNumber record found).trans (Nat.lt_succ_self _)
    · rename_i elsewhere
      simp only [if_neg elsewhere] at found ⊢
      exact numbered packetNumber record found
  | spend _ => exact numbered.setSpace rfl (fun _ _ => id) (Nat.le_succ _)
  | acknowledge _ =>
    rename_i level packetNumber _
    unfold acknowledgePacket
    split
    · exact numbered.setSpace rfl (fun _ _ => id) le_rfl
    · refine Numbered.setSpace (c := c.untrack level packetNumber) ?_ rfl
        (fun _ _ found => (find?_erase_sub found).2) le_rfl
      exact numbered.setSpace rfl (fun _ _ => id) le_rfl
  | lose =>
    rename_i level nowMs packetNumber span
    unfold losePacket
    have untracked : Numbered (c.untrack level packetNumber) :=
      numbered.setSpace rfl (fun _ _ => id) le_rfl
    split
    · exact untracked
    · refine Numbered.setSpace (c := Connection.enqueueAll _ level _) ?_ rfl
        (fun _ _ found => (find?_erase_sub found).2) le_rfl
      exact untracked.setSpace rfl (fun _ _ => id) le_rfl
  | drop _ =>
    rename_i level _
    have cleared : Numbered (c.clearSpace level) := by
      refine numbered.setSpace rfl (fun _ _ found => ?_) le_rfl
      cases found
    unfold dropLevelKeys
    split <;> exact cleared
  | retire found _ _ =>
    rename_i stream streamId _ _
    unfold retireStream grantPeerStream
    have retired : Numbered { c.retirePeerBidirectionalState streamId with
        sendStreams := c.sendStreams.erase streamId } := by
      refine numbered.same ?_ ?_ <;> rw [app_retirePeerBidirectionalState] <;> rfl
    split
    · exact retired.setSpace rfl (fun _ _ => id) le_rfl
    · exact retired

theorem StreamCovered.keep (covered : c.StreamCovered resets streamId stream)
    (keeps : ∀ portion, Keeps (Frame.Carries streamId portion) c d) :
    d.StreamCovered resets streamId stream :=
  fun portion owes => (covered portion owes).imp id (keeps portion).outstanding

theorem Covered.keep (covered : Covered resets c) (sends : d.sendStreams = c.sendStreams)
    (keeps : ∀ streamId portion, Keeps (Frame.Carries streamId portion) c d) :
    Covered resets d :=
  fun streamId stream found => (covered streamId stream (sends ▸ found)).keep (keeps streamId)

theorem Covered.insert (covered : Covered resets c)
    (made : d.sendStreams = c.sendStreams.insert streamId stream)
    (new : d.StreamCovered resets streamId stream)
    (keeps : ∀ other ≠ streamId, ∀ portion, Keeps (Frame.Carries other portion) c d) :
    Covered resets d := by
  intro other held found
  rw [made, SortedMap.find?_insert] at found
  split at found
  · rename_i here
    cases found
    exact here ▸ new
  · rename_i elsewhere
    exact (covered other held found).keep (keeps other elsewhere)

theorem Covered.sendStream (covered : Covered resets c) (streamId : Nat) :
    c.StreamCovered resets streamId (c.sendStream streamId) := by
  unfold Connection.sendStream
  cases found : c.sendStreams.find? streamId with
  | none => exact fun portion owes => absurd owes (SendStream.not_owes_empty resets portion)
  | some stream => exact covered streamId stream found

theorem StreamCovered.update (covered : c.StreamCovered resets streamId before)
    (owes : ∀ portion, after.Owes resets portion → before.Owes resets portion)
    (contiguous : after.contiguousAckedOffset = before.contiguousAckedOffset)
    (ranges : after.ackedRanges = before.ackedRanges) (fin : after.finAcked = before.finAcked) :
    c.StreamCovered resets streamId after := by
  intro portion owed
  refine (covered portion (owes portion owed)).imp (fun settled => ?_) id
  cases portion with
  | byte position =>
    unfold SendStream.Settled SendStream.Acked at settled ⊢
    rw [contiguous, ranges]
    exact settled
  | fin => exact fin.trans settled

theorem compact_owes (owes : stream.compact.Owes resets portion) : stream.Owes resets portion := by
  obtain ⟨-, -, -, resetAt, resetQueued, nextOffset, reliable, finSent, -⟩ := compact_knows stream
  cases portion with
  | byte position =>
    simpa only [SendStream.Owes, resetAt, resetQueued, nextOffset, reliable] using owes
  | fin => simpa only [SendStream.Owes, resetQueued, finSent] using owes

/-- A chunk frame carries all that staging the chunk adds. -/
theorem stageChunk_owes {chunkSize : Nat} (fits : chunkSize ≤ stream.remaining)
    (owes : (stream.stageChunk chunkSize).Owes resets portion) :
    stream.Owes resets portion ∨ (stream.chunkFrame streamId chunkSize).Carries streamId portion := by
  cases portion with
  | byte position =>
    unfold SendStream.Owes at owes ⊢
    by_cases reset : stream.resetQueued = true
    · simp only [SendStream.stageChunk, reset, if_true] at owes ⊢
      exact .inl owes
    · simp only [SendStream.stageChunk, reset] at owes ⊢
      by_cases old : position < stream.nextOffset
      · exact .inl old
      · refine .inr ⟨rfl, ?_, ?_⟩
        · omega
        · have length : (slice stream.buffer stream.bufferOffset chunkSize).length = chunkSize := by
            unfold SendStream.remaining at fits
            simp only [slice, length_take, length_drop]
            omega
          rw [length]
          exact owes
  | fin =>
    unfold SendStream.Owes at owes ⊢
    simp only [SendStream.stageChunk, Bool.or_eq_true] at owes
    obtain ⟨live, sent | fresh⟩ := owes
    · exact .inl ⟨live, sent⟩
    · exact .inr ⟨rfl, fresh⟩

theorem Keeps.setSpace {space : Space} (app : d.app = (c.setSpace level space).app)
    (pending : ∀ frame ∈ (c.spaces level).pendingFrames, test frame → frame ∈ space.pendingFrames)
    (sent : space.sentPackets = (c.spaces level).sentPackets)
    (tracked : space.loss.sent = (c.spaces level).loss.sent) : Keeps test c d := by
  rw [app_setSpace] at app
  split at app
  · rename_i here
    subst here
    exact ⟨fun frame member tested => app ▸ pending frame member tested,
      fun _ _ found => by rw [app, sent]; exact found, fun _ held => by rw [app, tracked]; exact held⟩
  · exact .of_app app

/-- Frames that leave the queue in a packet are in its record. -/
theorem Outstanding.transmit (numbered : Numbered c)
    (kept : ∀ frame, test frame → frame.isRetransmittable = true) {count : Nat}
    {frames : List Frame} (taken : frames.filter Frame.isRetransmittable =
      ((c.spaces level).pendingFrames.take count).filter Frame.isRetransmittable) (nowMs size : Nat)
    (outstanding : c.Outstanding test) :
    ((c.withPending level ((c.spaces level).pendingFrames.drop count)).trackPacket
      level frames nowMs size).Outstanding test := by
  generalize made : (c.withPending level ((c.spaces level).pendingFrames.drop count)).trackPacket
    level frames nowMs size = d
  by_cases here : level = .application
  · subst here
    have app : d.app = { c.app with
        pendingFrames := c.app.pendingFrames.drop count
        nextTxPn := c.app.nextTxPn + 1
        loss := c.app.loss.onPacketSent c.app.nextTxPn
          { sentTimeMs := nowMs, ackEliciting := true, sentBytes := size }
        lastAckElicitingSentMs := nowMs
        hasAckElicitingInFlight := true
        sentPackets := c.app.sentPackets.insert c.app.nextTxPn
          { retransmittable := frames.filter Frame.isRetransmittable, sentBytes := size
            sentTimeMs := nowMs, ackEliciting := true } } := by
      rw [← made]
      simp [trackPacket, withPending, Connection.app]
    unfold Outstanding
    rw [app]
    rcases outstanding with ⟨frame, member, tested⟩ | ⟨packetNumber, record, found, tracked, carried⟩
    · rw [← take_append_drop count c.app.pendingFrames, mem_append] at member
      rcases member with gone | waiting
      · refine .inr ⟨c.app.nextTxPn, _, by rw [SortedMap.find?_insert, if_pos rfl], ?_, frame, ?_,
          tested⟩
        · simp [LossRecovery.onPacketSent, SortedMap.contains]
        · rw [taken]
          exact mem_filter.mpr ⟨gone, kept frame tested⟩
      · exact .inl ⟨frame, waiting, tested⟩
    · have older := numbered packetNumber record found
      refine .inr ⟨packetNumber, record, ?_, ?_, carried⟩
      · rw [SortedMap.find?_insert, if_neg older.ne]
        exact found
      · simp only [LossRecovery.onPacketSent, SortedMap.contains, SortedMap.find?_insert,
          if_neg older.ne]
        exact tracked
  · refine (Keeps.of_app ?_).outstanding outstanding
    rw [← made]
    simp [trackPacket, withPending, Connection.app, Ne.symm here]

/-- A packet leaves the records and loss recovery of its level. -/
structure Settles (level : Level) (packetNumber : Nat) (before after : Connection) : Prop where
  pending : ∀ frame ∈ before.app.pendingFrames, frame ∈ after.app.pendingFrames
  sent : after.app.sentPackets = if level = .application
    then before.app.sentPackets.erase packetNumber else before.app.sentPackets
  tracked : after.app.loss.sent = if level = .application
    then before.app.loss.sent.erase packetNumber else before.app.loss.sent

/-- What a settled packet does not carry stays where it is. -/
theorem Settles.outstanding {packetNumber : Nat}
    (settles : Settles level packetNumber c d) (outstanding : c.Outstanding test) :
    d.Outstanding test ∨ level = .application ∧
      ∃ record, c.app.sentPackets.find? packetNumber = some record ∧
        ∃ frame ∈ record.retransmittable, test frame := by
  rcases outstanding with ⟨frame, member, tested⟩ | ⟨other, record, found, held, carried⟩
  · exact .inl (.inl ⟨frame, settles.pending frame member, tested⟩)
  · by_cases here : level = .application ∧ other = packetNumber
    · obtain ⟨application, rfl⟩ := here
      exact .inr ⟨application, record, found, carried⟩
    · refine .inl (.inr ⟨other, record, ?_, ?_, carried⟩)
      · rw [settles.sent]
        split
        · rw [SortedMap.find?_erase, if_neg fun same => here ⟨‹_›, same⟩]
          exact found
        · exact found
      · rw [settles.tracked]
        split
        · rw [SortedMap.contains, SortedMap.find?_erase, if_neg fun same => here ⟨‹_›, same⟩]
          exact held
        · exact held

theorem settles_untrack (absent : (c.spaces level).sentPackets.find? packetNumber = none) :
    Settles level packetNumber c (c.untrack level packetNumber) := by
  unfold untrack
  constructor <;> rw [app_setSpace] <;> split
  · rename_i here
    exact here ▸ fun frame member => member
  · exact fun frame member => member
  · rename_i here
    subst here
    exact (SortedMap.erase_of_absent absent).symm
  · rfl
  · rename_i here
    exact here ▸ rfl
  · rfl

theorem Covered.acknowledge (covered : Covered resets c) (sound : Sound acked c)
    (level : Level) (packetNumber : Nat) :
    Covered resets (acknowledgePacket level (c.untrack level packetNumber) packetNumber) := by
  have recorded : ((c.untrack level packetNumber).spaces level).sentPackets =
      (c.spaces level).sentPackets := by simp [untrack]
  intro streamId stream found portion owes
  unfold acknowledgePacket at found ⊢
  rw [recorded] at found ⊢
  cases present : (c.spaces level).sentPackets.find? packetNumber with
  | none =>
    simp only [present] at found ⊢
    refine (covered streamId stream found portion owes).imp id fun outstanding => ?_
    rcases (settles_untrack present).outstanding outstanding with kept | ⟨rfl, record, held, -⟩
    · exact kept
    · exact absurd (present.symm.trans held) (by simp)
  | some record =>
    simp only [present] at found ⊢
    rw [find?_foldl_acknowledgeFrame, Option.map_eq_some_iff] at found
    obtain ⟨before, known, rfl⟩ := found
    obtain ⟨-, settled, -⟩ := SendStream.foldl_answered_settled (sound streamId before known).apart
      streamId record.retransmittable
    have same := SendStream.foldl_answered_same streamId record.retransmittable before
    rw [settled portion]
    rcases covered streamId before known portion (same.owes owes) with acked | outstanding
    · exact .inl (.inl acked)
    · have settles : Settles level packetNumber c
          { (c.untrack level packetNumber).forgetPacket level packetNumber with
            congestion := if record.ackEliciting then
                (c.untrack level packetNumber).congestion.onPacketAcked record.sentBytes
                  record.sentTimeMs
              else (c.untrack level packetNumber).congestion
            sendStreams := record.retransmittable.foldl acknowledgeFrame
              (c.untrack level packetNumber).sendStreams } := by
        cases level <;> exact ⟨fun _ member => member, rfl, rfl⟩
      rcases settles.outstanding outstanding with kept | ⟨rfl, other, held, carried⟩
      · exact .inr kept
      · cases present.symm.trans held
        exact .inl (.inr carried)

/-- A lost frame that carries what its stream still owes is sent again. -/
theorem shouldRetransmitFrame_of_owes (retirement : Retirement c)
    (found : c.sendStreams.find? streamId = some stream) (apart : stream.RangesApart)
    (owes : stream.Owes resets portion) (unsettled : ¬ stream.Settled portion)
    (carries : frame.Carries streamId portion) : c.shouldRetransmitFrame frame = true := by
  cases frame with
  | stream target offset data fin =>
    obtain ⟨rfl, carried⟩ := carries
    simp only [shouldRetransmitFrame, retirement.sends target stream found, found]
    cases portion with
    | byte position =>
      unfold SendStream.Owes at owes
      split
      · rename_i reset
        simp only [reset, if_true] at owes
        simp only [owes.2.1, Bool.not_false, Bool.true_and, decide_eq_true_eq]
        omega
      · simp only [Bool.not_false, Bool.true_and, Bool.or_eq_true, Bool.not_eq_true',
          Bool.eq_false_iff]
        refine .inl fun tested => unsettled ?_
        exact (SendStream.isRangeAcked_iff apart offset data.length).mp tested position
          carried.1 carried.2
    | fin =>
      have unacked : stream.finAcked = false := Bool.eq_false_iff.mpr unsettled
      simp [owes.1, show fin = true from carried, unacked]
  | _ => exact absurd carries id

theorem Covered.lose (covered : Covered resets c) (sound : Sound acked c)
    (retirement : Retirement c) (level : Level) (nowMs packetNumber : Nat) (span : LostSpan) :
    Covered resets (losePacket level nowMs (c.untrack level packetNumber, span) packetNumber).1 := by
  have recorded : ((c.untrack level packetNumber).spaces level).sentPackets =
      (c.spaces level).sentPackets := by simp [untrack]
  intro streamId stream found portion owes
  unfold losePacket at found ⊢
  dsimp only at found ⊢
  rw [recorded] at found ⊢
  cases present : (c.spaces level).sentPackets.find? packetNumber with
  | none =>
    simp only [present] at found ⊢
    refine (covered streamId stream found portion owes).imp id fun outstanding => ?_
    rcases (settles_untrack present).outstanding outstanding with kept | ⟨rfl, record, held, -⟩
    · exact kept
    · exact absurd (present.symm.trans held) (by simp)
  | some record =>
    simp only [present] at found ⊢
    refine or_iff_not_imp_left.mpr fun unsettled => ?_
    have outstanding := (covered streamId stream found portion owes).resolve_left unsettled
    have settles : Settles level packetNumber c
        ((c.untrack level packetNumber).requeueLost level nowMs packetNumber record) := by
      cases level
      · exact ⟨fun _ member => member, rfl, rfl⟩
      · exact ⟨fun _ member => member, rfl, rfl⟩
      · exact ⟨fun _ member => mem_append_left _ member, rfl, rfl⟩
    rcases settles.outstanding outstanding with kept | ⟨rfl, other, held, frame, member, carries⟩
    · exact kept
    · cases present.symm.trans held
      refine .inl ⟨frame, mem_append_right _ (mem_filter.mpr ⟨member, ?_⟩), carries⟩
      exact shouldRetransmitFrame_of_owes (c := c) retirement found
        (sound streamId stream found).apart owes unsettled carries

theorem keeps_removePending {other : Nat} {removeResetFrames : Bool}
    (app : d.app = (c.removePendingSendFramesForStream streamId removeResetFrames).app)
    (elsewhere : other ≠ streamId) : Keeps (Frame.Carries other portion) c d := by
  refine .setSpace app (fun frame member carries => ?_) rfl rfl
  refine mem_filter.mpr ⟨member, ?_⟩
  cases frame with
  | stream target offset data fin => simpa using carries.1.trans_ne elsewhere
  | _ => exact absurd carries id

/-- All that streams still owe waits in the queue. -/
def Waits (resets : Bool) (ledger : Ledger) : Prop :=
  ∀ streamId stream, ledger.sendStreams.find? streamId = some stream →
    ∀ portion, stream.Owes resets portion → stream.Settled portion ∨
      ∃ frame ∈ ledger.pending .application, frame.Carries streamId portion

/-- Application keys stay, and a new path forgets no packet that matters. -/
structure KeepsData (resets : Bool) (rules : Rules) : Prop where
  drop : ∀ ledger level, rules.drop ledger level → level ≠ .application
  migrate : ∀ ledger, rules.migrate ledger → Waits resets ledger

theorem Covered.change (keepsData : KeepsData resets rules)
    (covered : Covered resets c) (numbered : Numbered c) (sound : Sound rules.acknowledged c)
    (retirement : Retirement c) (change : Change rules c d) : Covered resets d := by
  have same : ∀ {d : Connection}, d.ledger = c.ledger → Covered resets d := by
    intro d ledger
    have pending : d.app.pendingFrames = c.app.pendingFrames :=
      congrFun (congrArg Ledger.pending ledger) .application
    have sent : d.app.sentPackets = c.app.sentPackets :=
      congrFun (congrArg Ledger.sent ledger) .application
    have tracked : d.app.loss.sent = c.app.loss.sent :=
      congrFun (congrArg Ledger.tracked ledger) .application
    exact covered.keep (congrArg Ledger.sendStreams ledger) fun _ _ =>
      ⟨fun _ member _ => pending ▸ member, fun _ _ found => sent ▸ found,
        fun _ held => tracked ▸ held⟩
  cases change with
  | quiet quiet => exact same quiet.ledger
  | receive _ only _ => exact same only.ledger
  | enqueue _ =>
    exact covered.keep rfl fun _ _ =>
      .setSpace rfl (fun _ member _ => mem_append_left _ member) rfl rfl
  | shed _ kept =>
    exact covered.keep rfl fun _ _ =>
      .setSpace rfl (fun frame member carries => kept frame member carries.isRetransmittable) rfl rfl
  | touch live =>
    rename_i streamId
    refine covered.insert rfl ?_ fun _ _ _ => .of_app rfl
    exact (covered.sendStream streamId).keep fun _ => .of_app rfl
  | append live open_ fresh permitted =>
    rename_i streamId data fin
    obtain ⟨contiguous, ranges, finAcked, -⟩ := compact_knows (c.sendStream streamId)
    refine covered.insert rfl ?_ fun _ _ _ => .of_app rfl
    refine StreamCovered.keep (c := c) ?_ fun _ => .of_app rfl
    refine (covered.sendStream streamId).update (fun portion owes => compact_owes ?_) contiguous
      ranges finAcked
    cases portion <;> exact owes
  | reset live fresh permitted =>
    rename_i streamId
    have plain : (c.sendStream streamId).resetAt = false := by
      refine Bool.eq_false_iff.mpr fun resetAt => ?_
      rw [(sound.sendStream streamId).resetQueued resetAt] at fresh
      contradiction
    refine covered.insert rfl (fun portion owes => ?_) fun other elsewhere portion => ?_
    · refine absurd owes (SendStream.not_owes_reset ?_ ?_ resets portion)
      · rfl
      · exact plain
    · exact keeps_removePending rfl elsewhere
  | resetAt live fresh within permitted =>
    rename_i reliableSize streamId
    refine covered.insert rfl (fun portion owes => ?_) fun other elsewhere portion =>
      .of_pending (fun frame member carries => ?_) rfl rfl
    · cases portion with
      | byte position =>
        have early : position < reliableSize := owes.2.2
        refine (covered.sendStream streamId (.byte position) ?_).imp id fun outstanding => ?_
        · simp only [SendStream.Owes, fresh]
          exact early.trans_le within
        · refine Keeps.outstanding (c := c) (.of_pending (fun frame member carries => ?_) rfl rfl)
            outstanding
          refine mem_filter.mpr ⟨member, ?_⟩
          cases frame with
          | stream target offset data fin =>
            have := carries.2.1
            simp only [Bool.or_eq_true, decide_eq_true_eq]
            omega
          | _ => exact absurd carries id
      | fin => exact absurd owes.1 (by simp)
    · refine mem_filter.mpr ⟨member, ?_⟩
      cases frame with
      | stream target offset data fin => simp [carries.1.trans_ne elsewhere]
      | _ => exact absurd carries id
  | stage =>
    rename_i streamId
    rcases stageOneStreamFrame_cases c streamId with unchanged |
      ⟨stream, found, ⟨chunkSize, -, fits, staged⟩ | ⟨-, -, -, staged⟩⟩
    · rw [unchanged]
      exact covered
    · rw [staged]
      have keeps : ∀ test, Keeps test c (c.stageChunk streamId stream chunkSize) := fun _ =>
        .of_pending (fun _ member _ => mem_append_left _ member) rfl rfl
      refine covered.insert rfl (fun portion owes => ?_) fun _ _ _ => keeps _
      rcases stageChunk_owes fits owes with old | new
      · refine (covered streamId stream found portion old).imp ?_ (keeps _).outstanding
        cases portion <;> exact id
      · exact .inr (.inl ⟨_, mem_append_right _ (mem_singleton.mpr rfl), new⟩)
    · rw [staged]
      have keeps : ∀ test, Keeps test c (c.stageFin streamId stream) := fun _ =>
        .of_pending (fun _ member _ => mem_append_left _ member) rfl rfl
      refine covered.insert rfl (fun portion owes => ?_) fun _ _ _ => keeps _
      cases portion with
      | byte position =>
        exact (covered streamId stream found (.byte position) owes).imp id (keeps _).outstanding
      | fin =>
        exact .inr (.inl ⟨_, mem_append_right _ (mem_singleton.mpr rfl), rfl, rfl⟩)
  | transmit _ taken =>
    intro streamId stream found portion owes
    exact (covered streamId stream found portion owes).imp id
      (.transmit numbered (fun _ carries => carries.isRetransmittable) taken _ _)
  | spend _ => exact covered.keep rfl fun _ _ => .setSpace rfl (fun _ member _ => member) rfl rfl
  | acknowledge _ => exact covered.acknowledge sound _ _
  | lose => exact covered.lose sound retirement _ _ _ _
  | drop permitted =>
    rename_i level
    have other := keepsData.drop _ _ permitted
    have unchanged : (c.dropLevelKeys level).app = c.app := by
      unfold dropLevelKeys clearSpace
      rw [if_neg other, app_setSpace, if_neg other]
    refine covered.keep ?_ fun _ _ => .of_app unchanged
    unfold dropLevelKeys
    split <;> rfl
  | migrate permitted =>
    intro streamId stream found portion owes
    refine (keepsData.migrate _ permitted streamId stream found portion owes).imp id fun waits => ?_
    exact .inl waits
  | release found peer =>
    rename_i stream streamId
    refine covered.insert rfl ?_ fun _ _ _ => .of_app rfl
    refine StreamCovered.keep (c := c) ?_ fun _ => .of_app rfl
    refine (covered.sendStream streamId).update (fun portion owes => ?_) rfl rfl rfl
    cases portion <;> exact owes
  | retire held retires permitted =>
    rename_i stream streamId
    intro other held found
    obtain ⟨elsewhere, present⟩ := retireStream_found found
    refine (covered other held present).keep fun portion => ?_
    unfold retireStream grantPeerStream
    have retired : Keeps (Frame.Carries other portion) c
        { c.retirePeerBidirectionalState streamId with
          sendStreams := c.sendStreams.erase streamId } :=
      keeps_removePending (app_retirePeerBidirectionalState c streamId _) elsewhere
    split
    · refine ⟨fun frame member carries => ?_, retired.sent, retired.tracked⟩
      exact mem_append_left _ (retired.pending frame member carries)
    · exact retired

end Connection
end SwStack.Quic
