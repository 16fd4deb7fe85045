import SwStack.Quic.SendChanges

/-! What the application wrote, and that every STREAM frame an endpoint holds carries a
piece of it. -/
namespace SwStack.Quic

open SwStack.Lib List

/-- All that a stream accepted: its data, and whether it ended. -/
structure Writing where
  data : Bytes
  fin : Bool
  deriving DecidableEq

def Writing.empty : Writing := { data := [], fin := false }

def Writing.append (writing : Writing) (data : Bytes) (fin : Bool) : Writing :=
  { data := writing.data ++ data, fin }

abbrev Log := Nat → Writing

def Log.append (log : Log) (streamId : Nat) (data : Bytes) (fin : Bool) : Log :=
  Function.update log streamId ((log streamId).append data fin)

/-- A piece of what was written, with the end marked only where the writing ended. -/
structure Writing.Contains (writing : Writing) (offset : Nat) (piece : Bytes) (fin : Bool) :
    Prop where
  within : offset + piece.length ≤ writing.data.length
  data : piece = slice writing.data offset piece.length
  fin : fin = true → writing.fin = true

def Frame.Written (log : Log) : Frame → Prop
  | .stream streamId offset data fin => (log streamId).Contains offset data fin
  | _ => True

theorem Writing.Contains.append {writing : Writing} {offset : Nat} {piece : Bytes} {last : Bool}
    (contains : writing.Contains offset piece last) (open_ : writing.fin = false) (data : Bytes)
    (fin : Bool) : (writing.append data fin).Contains offset piece last := by
  have within := contains.within
  refine ⟨?_, ?_, fun final => ?_⟩
  · rw [Writing.append, length_append]
    omega
  · refine contains.data.trans ?_
    unfold slice Writing.append
    rw [drop_append_of_le_length (by omega), take_append_of_le_length]
    rw [length_drop]
    omega
  · exact absurd (open_.symm.trans (contains.fin final)) (by simp)

theorem Frame.Written.append {log : Log} {frame : Frame} (written : frame.Written log)
    {streamId : Nat} (open_ : (log streamId).fin = false) (data : Bytes) (fin : Bool) :
    frame.Written (log.append streamId data fin) := by
  cases frame with
  | stream target offset piece last =>
    simp only [Frame.Written, Log.append, Function.update_apply] at written ⊢
    split
    · rename_i here
      subst here
      exact Writing.Contains.append written open_ data fin
    · exact written
  | _ => exact trivial

namespace SendStream

/-- A send state against what was written: its buffer is the part not in frames yet. -/
structure Matches (stream : SendStream) (writing : Writing) : Prop where
  within : stream.nextOffset ≤ writing.data.length
  compacted : stream.bufferOffset ≤ stream.buffer.length
  unsent : stream.resetQueued = false →
    stream.buffer.drop stream.bufferOffset = writing.data.drop stream.nextOffset
  abandoned : stream.resetQueued = true → stream.buffer = []
  finQueued : stream.finQueued = writing.fin
  finSent : stream.finSent = true → stream.finQueued = true ∧ stream.remaining = 0

variable {stream before after : SendStream} {writing : Writing}

theorem Matches.empty : SendStream.empty.Matches .empty :=
  { within := le_rfl, compacted := le_rfl, unsent := fun _ => rfl, abandoned := by intros; contradiction
    finQueued := rfl, finSent := by intros; contradiction }

theorem Matches.same (matches_ : before.Matches writing) (same : SameSent before after) :
    after.Matches writing := by
  constructor
  · exact same.nextOffset ▸ matches_.within
  · rw [same.bufferOffset, same.buffer]
    exact matches_.compacted
  · rw [same.resetQueued, same.buffer, same.bufferOffset, same.nextOffset]
    exact matches_.unsent
  · rw [same.resetQueued, same.buffer]
    exact matches_.abandoned
  · exact same.finQueued.trans matches_.finQueued
  · unfold SendStream.remaining
    rw [same.finSent, same.finQueued, same.buffer, same.bufferOffset]
    exact matches_.finSent

theorem Matches.remaining (matches_ : stream.Matches writing)
    (fresh : stream.resetQueued = false) :
    stream.nextOffset + stream.remaining = writing.data.length := by
  have within := matches_.within
  have lengths := congrArg List.length (matches_.unsent fresh)
  rw [length_drop, length_drop] at lengths
  unfold SendStream.remaining
  omega

theorem Matches.append (matches_ : stream.Matches writing) (fresh : stream.resetQueued = false)
    (open_ : stream.finQueued = false) (data : Bytes) (fin : Bool) :
    (stream.append data fin).Matches (writing.append data fin) := by
  have compacted : stream.compact.bufferOffset ≤ stream.compact.buffer.length ∧
      stream.compact.buffer.drop stream.compact.bufferOffset =
        stream.buffer.drop stream.bufferOffset := by
    unfold SendStream.compact
    split
    · exact ⟨Nat.zero_le _, rfl⟩
    · exact ⟨matches_.compacted, rfl⟩
  have kept : stream.compact.nextOffset = stream.nextOffset ∧
      stream.compact.resetQueued = stream.resetQueued ∧
      stream.compact.finSent = stream.finSent := by
    unfold SendStream.compact
    split <;> exact ⟨rfl, rfl, rfl⟩
  have within := matches_.within
  refine ⟨?_, ?_, fun _ => ?_, fun reset => ?_, rfl, fun sent => ?_⟩
  · simp only [SendStream.append, Writing.append, length_append, kept.1]
    omega
  · simp only [SendStream.append, length_append]
    omega
  · simp only [SendStream.append, Writing.append, kept.1]
    rw [drop_append_of_le_length compacted.1, compacted.2,
      drop_append_of_le_length within, matches_.unsent fresh]
  · exact absurd (fresh.symm.trans (kept.2.1.symm.trans reset)) (by simp)
  · exact absurd (open_.symm.trans (matches_.finSent (kept.2.2.symm.trans sent)).1) (by simp)

theorem Matches.fresh (matches_ : stream.Matches writing) (unsent : 0 < stream.remaining) :
    stream.resetQueued = false := by
  refine Bool.eq_false_iff.mpr fun reset => ?_
  simp only [SendStream.remaining, matches_.abandoned reset, length_nil] at unsent
  omega

/-- A chunk is a piece of what was written, and the last one ends it. -/
theorem Matches.stageChunk (matches_ : stream.Matches writing)
    (some_ : 0 < chunkSize) (fits : chunkSize ≤ stream.remaining) :
    (stream.stageChunk chunkSize).Matches writing ∧
      writing.Contains stream.nextOffset (slice stream.buffer stream.bufferOffset chunkSize)
        (stream.finQueued && decide (chunkSize = stream.remaining)) ∧
      (slice stream.buffer stream.bufferOffset chunkSize).length = chunkSize := by
  have fresh := matches_.fresh (some_.trans_le fits)
  have total := matches_.remaining fresh
  have unsent := matches_.unsent fresh
  have compacted := matches_.compacted
  have buffered : stream.remaining = stream.buffer.length - stream.bufferOffset := rfl
  have length : (slice stream.buffer stream.bufferOffset chunkSize).length = chunkSize := by
    simp only [slice, length_take, length_drop]
    omega
  refine ⟨⟨?_, ?_, fun _ => ?_, fun reset => ?_, matches_.finQueued, fun sent => ?_⟩,
    ⟨?_, ?_, fun final => ?_⟩, length⟩
  · simp only [SendStream.stageChunk]
    omega
  · simp only [SendStream.stageChunk]
    split
    · exact le_rfl
    · omega
  · simp only [SendStream.stageChunk]
    rw [← drop_drop, ← unsent, drop_drop]
    split
    · rename_i all
      rw [drop_nil, drop_eq_nil_of_le (by omega)]
    · rfl
  · exact absurd (fresh.symm.trans reset) (by simp)
  · simp only [SendStream.stageChunk, Bool.or_eq_true, Bool.and_eq_true, decide_eq_true_eq] at sent
    rcases sent with sent | ⟨queued, all⟩
    · have := (matches_.finSent sent).2
      omega
    · have emptied : (stream.stageChunk chunkSize).buffer = [] := if_pos all
      refine ⟨queued, ?_⟩
      rw [SendStream.remaining, emptied]
      exact Nat.zero_sub _
  · rw [length]
    omega
  · rw [length]
    unfold slice
    rw [unsent]
  · simp only [Bool.and_eq_true] at final
    exact matches_.finQueued.symm.trans final.1

theorem Matches.stageFin (matches_ : stream.Matches writing) (drained : stream.remaining = 0)
    (queued : stream.finQueued = true) :
    { stream with finSent := true }.Matches writing ∧
      writing.Contains stream.nextOffset [] true :=
  ⟨⟨matches_.within, matches_.compacted, matches_.unsent, matches_.abandoned, matches_.finQueued,
      fun _ => ⟨queued, drained⟩⟩,
    ⟨matches_.within, by simp [slice], fun _ => matches_.finQueued.symm.trans queued⟩⟩

end SendStream

namespace Connection

variable {c d : Connection} {rules : Rules} {log : Log}

/-- Streams never go back. -/
structure Advances (before after : Connection) : Prop where
  retired : ∀ streamId, before.isRetiredPeerBidirectional streamId = true →
    after.isRetiredPeerBidirectional streamId = true
  streams : ∀ streamId stream, before.sendStreams.find? streamId = some stream →
    after.isRetiredPeerBidirectional streamId = true ∨
      ∃ later, after.sendStreams.find? streamId = some later ∧
        stream.nextOffset ≤ later.nextOffset ∧
        (later.resetQueued = false → stream.resetQueued = false)

theorem Advances.refl (c : Connection) : Advances c c :=
  ⟨fun _ => id, fun _ stream found => .inr ⟨stream, found, le_rfl, id⟩⟩

theorem Advances.trans (left : Advances first second)
    (right : Advances second third) : Advances first third := by
  refine ⟨fun streamId gone => right.retired _ (left.retired _ gone), fun streamId stream found => ?_⟩
  rcases left.streams streamId stream found with gone | ⟨middle, held, grown, fresh⟩
  · exact .inl (right.retired _ gone)
  · rcases right.streams streamId middle held with gone | ⟨later, present, more, fresher⟩
    · exact .inl gone
    · exact .inr ⟨later, present, grown.trans more, fun last => fresh (fresher last)⟩

theorem Advances.map (role : d.setup.role = c.setup.role)
    (ranges : d.retiredPeerBidiRanges = c.retiredPeerBidiRanges)
    (sends : ∀ streamId stream, c.sendStreams.find? streamId = some stream →
      ∃ later, d.sendStreams.find? streamId = some later ∧ SendStream.SameSent stream later) :
    Advances c d := by
  refine ⟨fun streamId gone => (isRetired_congr role ranges streamId).trans gone,
    fun streamId stream found => ?_⟩
  obtain ⟨later, held, same⟩ := sends streamId stream found
  exact .inr ⟨later, held, same.nextOffset.ge, fun fresh => same.resetQueued.symm.trans fresh⟩

theorem Advances.same (role : d.setup.role = c.setup.role)
    (ranges : d.retiredPeerBidiRanges = c.retiredPeerBidiRanges)
    (sends : d.sendStreams = c.sendStreams) : Advances c d :=
  .map role ranges fun _ stream found => ⟨stream, sends ▸ found, .refl stream⟩

theorem Advances.ledger (ledger : d.ledger = c.ledger) : Advances c d :=
  .same (congrArg Ledger.role ledger) (congrArg Ledger.retired ledger)
    (congrArg Ledger.sendStreams ledger)

variable {streamId : Nat} {stream : SendStream}

theorem Advances.insert (role : d.setup.role = c.setup.role)
    (ranges : d.retiredPeerBidiRanges = c.retiredPeerBidiRanges)
    (made : d.sendStreams = c.sendStreams.insert streamId stream)
    (grown : ∀ before, c.sendStreams.find? streamId = some before →
      before.nextOffset ≤ stream.nextOffset ∧
        (stream.resetQueued = false → before.resetQueued = false)) : Advances c d := by
  refine ⟨fun other gone => (isRetired_congr role ranges other).trans gone,
    fun other held found => .inr ?_⟩
  rw [made]
  by_cases here : other = streamId
  · subst here
    exact ⟨stream, by rw [SortedMap.find?_insert, if_pos rfl], grown held found⟩
  · exact ⟨held, by rw [SortedMap.find?_insert, if_neg here, found], le_rfl, id⟩

theorem sendStream_of_found
    (found : c.sendStreams.find? streamId = some stream) : c.sendStream streamId = stream := by
  rw [Connection.sendStream, found]
  rfl

theorem Change.advances (retirement : Retirement c) (change : Change rules c d) :
    Advances c d := by
  cases change with
  | quiet quiet => exact .ledger quiet.ledger
  | receive _ only _ => exact .ledger only.ledger
  | enqueue _ | shed _ _ | transmit _ _ | spend _ | migrate _ => exact .same rfl rfl rfl
  | touch live =>
    refine .insert rfl rfl rfl fun before found => ?_
    rw [sendStream_of_found found]
    exact ⟨le_rfl, id⟩
  | append live open_ fresh permitted =>
    refine .insert rfl rfl rfl fun before found => ?_
    rw [sendStream_of_found found] at fresh ⊢
    unfold SendStream.append SendStream.compact
    split <;> exact ⟨le_rfl, id⟩
  | reset live fresh permitted =>
    refine .insert rfl rfl rfl fun before found => ?_
    rw [sendStream_of_found found]
    exact ⟨le_rfl, fun cleared => absurd cleared (by simp)⟩
  | resetAt live fresh within permitted =>
    refine .insert rfl rfl rfl fun before found => ?_
    rw [sendStream_of_found found]
    exact ⟨le_rfl, fun cleared => absurd cleared (by simp)⟩
  | stage =>
    rename_i streamId
    rcases stageOneStreamFrame_cases c streamId with same |
      ⟨stream, found, ⟨chunkSize, -, -, staged⟩ | ⟨-, -, -, staged⟩⟩
    · rw [same]
      exact .refl c
    all_goals
      rw [staged]
      refine .insert rfl rfl rfl fun before held => ?_
      cases found.symm.trans held
    · exact ⟨Nat.le_add_right _ _, id⟩
    · exact ⟨le_rfl, id⟩
  | acknowledge permitted =>
    rename_i level packetNumber
    obtain ⟨role, retired, -⟩ :=
      acknowledgePacket_same (c.untrack level packetNumber) level packetNumber
    refine .map role retired fun streamId stream found => ?_
    obtain ⟨frames, answered⟩ :=
      acknowledgePacket_sends (c.untrack level packetNumber) level packetNumber streamId
    refine ⟨_, answered.trans (congrArg (Option.map _) found), ?_⟩
    exact SendStream.foldl_answered_same streamId frames stream
  | lose =>
    rename_i level nowMs packetNumber span
    obtain ⟨role, retired, -, sends⟩ :=
      losePacket_same (c.untrack level packetNumber, span) level nowMs packetNumber
    exact .same role retired sends
  | drop _ =>
    unfold dropLevelKeys
    split <;> exact .same rfl rfl rfl
  | release found peer =>
    refine .insert rfl rfl rfl fun before held => ?_
    rw [sendStream_of_found held]
    exact ⟨le_rfl, id⟩
  | retire found retires permitted =>
    rename_i stream streamId
    have peer : c.isPeerInitiatedBidirectional streamId = true := by
      refine retirement.released _ _ found ?_
      simp only [Connection.retires, Bool.and_eq_true] at retires
      exact retires.1.1
    have gone := retireStream_isRetired retirement peer
    refine ⟨fun other retired => (gone other).mpr (.inl retired), fun other held present => ?_⟩
    by_cases here : other = streamId
    · exact .inl ((gone other).mpr (.inr here))
    · refine .inr ⟨held, ?_, le_rfl, id⟩
      rw [retireStream_sendStreams, SortedMap.find?_erase, if_neg here, present]

/-- Every STREAM frame in a queue or on record passes a test. -/
structure Holding (test : Frame → Prop) (c : Connection) : Prop where
  pending : ∀ level, ∀ frame ∈ (c.spaces level).pendingFrames, frame.isStream = true → test frame
  recorded : ∀ level, ∀ entry ∈ (c.spaces level).sentPackets.entries,
    ∀ frame ∈ entry.2.retransmittable, frame.isStream = true → test frame

variable {test weaker : Frame → Prop}

theorem Holding.imp (holding : Holding test c)
    (implies : ∀ frame, frame.isStream = true → test frame → weaker frame) : Holding weaker c :=
  { pending := fun level frame member data => implies frame data
      (holding.pending level frame member data)
    recorded := fun level entry member frame carried data => implies frame data
      (holding.recorded level entry member frame carried data) }

theorem Holding.update (holding : Holding test c)
    (spaces : d.spaces = Function.update c.spaces level space)
    (pending : ∀ frame ∈ space.pendingFrames, frame.isStream = true → test frame)
    (recorded : ∀ entry ∈ space.sentPackets.entries, ∀ frame ∈ entry.2.retransmittable,
      frame.isStream = true → test frame) : Holding test d := by
  constructor
  all_goals
    intro other
    rw [spaces, Function.update_apply]
    split
  · exact pending
  · exact holding.pending other
  · exact recorded
  · exact holding.recorded other

theorem Holding.ledger (holding : Holding test c) (ledger : d.ledger = c.ledger) :
    Holding test d := by
  constructor <;> intro level
  · have same : (d.spaces level).pendingFrames = (c.spaces level).pendingFrames :=
      congrFun (congrArg Ledger.pending ledger) level
    exact same ▸ holding.pending level
  · have same : (d.spaces level).sentPackets = (c.spaces level).sentPackets :=
      congrFun (congrArg Ledger.sent ledger) level
    exact same ▸ holding.recorded level

theorem Holding.requeue (holding : Holding test c)
    (spaces : d.spaces = Function.update c.spaces level space)
    (sent : space.sentPackets = (c.spaces level).sentPackets)
    (pending : ∀ frame ∈ space.pendingFrames, frame ∈ (c.spaces level).pendingFrames ∨
      (frame.isStream = true → test frame)) : Holding test d := by
  refine holding.update spaces (fun frame member data => ?_) (sent ▸ holding.recorded level)
  rcases pending frame member with held | fine
  · exact holding.pending level frame held data
  · exact fine data

theorem Holding.filterPending (holding : Holding test c) (keep : Frame → Bool)
    (spaces : d.spaces = (c.filterPending keep).spaces) : Holding test d :=
  holding.requeue spaces rfl fun _ member => .inl (mem_filter.mp member).1

theorem Holding.forgetPacket (holding : Holding test c) (level : Level) (packetNumber : Nat)
    (spaces : d.spaces = (c.forgetPacket level packetNumber).spaces) : Holding test d := by
  refine holding.update spaces (holding.pending level) fun entry member => ?_
  exact holding.recorded level entry (SortedMap.mem_entries_erase.mp member).1

theorem Holding.change (driverQuiet : ∀ frame, ¬ rules.queue frame) (holding : Holding test c)
    (change : Change rules c d)
    (chunk : ∀ streamId stream chunkSize, c.sendStreams.find? streamId = some stream →
      0 < chunkSize → chunkSize ≤ stream.remaining → d = c.stageChunk streamId stream chunkSize →
      test (stream.chunkFrame streamId chunkSize))
    (fin : ∀ streamId stream, c.sendStreams.find? streamId = some stream →
      stream.remaining = 0 → stream.finQueued = true → d = c.stageFin streamId stream →
      test (.stream streamId stream.nextOffset [] true)) : Holding test d := by
  cases change with
  | quiet quiet => exact holding.ledger quiet.ledger
  | receive _ only _ => exact holding.ledger only.ledger
  | enqueue queued =>
    rename_i frames level
    refine holding.requeue rfl rfl fun frame member => ?_
    refine (mem_append.mp member).imp id fun new data => ?_
    rcases queued frame new data with driver | ⟨entry, held, carried⟩
    · exact absurd driver (driverQuiet frame)
    · exact holding.recorded level entry held frame carried data
  | shed held _ => exact holding.requeue rfl rfl fun frame member => .inl (held frame member)
  | touch _ | append _ _ _ _ | release _ _ => exact ⟨holding.pending, holding.recorded⟩
  | reset _ _ _ => exact holding.filterPending _ rfl
  | resetAt _ _ _ _ => exact holding.filterPending _ rfl
  | stage =>
    rename_i streamId
    rcases stageOneStreamFrame_cases c streamId with same |
      ⟨stream, found, ⟨chunkSize, some_, fits, staged⟩ | ⟨drained, queued, -, staged⟩⟩
    · rw [same]
      exact holding
    · refine holding.requeue (congrArg Connection.spaces staged) rfl fun frame member => ?_
      refine (mem_append.mp member).imp id fun new data => ?_
      exact mem_singleton.mp new ▸ chunk streamId stream chunkSize found some_ fits staged
    · refine holding.requeue (congrArg Connection.spaces staged) rfl fun frame member => ?_
      refine (mem_append.mp member).imp id fun new data => ?_
      exact mem_singleton.mp new ▸ fin streamId stream found drained queued staged
  | transmit armed taken =>
    rename_i level count frames nowMs size
    have left : Holding test
        (c.withPending level ((c.spaces level).pendingFrames.drop count)) :=
      holding.requeue rfl rfl fun _ member => .inl (mem_of_mem_drop member)
    refine left.update rfl (left.pending level) fun entry member frame carried data => ?_
    rcases SortedMap.mem_insertEntry member with rfl | old
    · dsimp only at carried
      rw [taken] at carried
      exact holding.pending level frame (mem_of_mem_take (mem_filter.mp carried).1) data
    · exact left.recorded level entry old frame carried data
  | spend _ => exact holding.requeue rfl rfl fun _ => .inl
  | acknowledge permitted =>
    rename_i level packetNumber
    have untracked : Holding test (c.untrack level packetNumber) :=
      holding.requeue rfl rfl fun _ => .inl
    unfold acknowledgePacket
    split
    · exact untracked
    · exact untracked.forgetPacket level packetNumber rfl
  | lose =>
    rename_i level nowMs packetNumber span
    have untracked : Holding test (c.untrack level packetNumber) :=
      holding.requeue rfl rfl fun _ => .inl
    unfold losePacket
    split
    · exact untracked
    · rename_i record found
      have requeued : Holding test ((c.untrack level packetNumber).enqueueAll level
          (record.retransmittable.filter (c.untrack level packetNumber).shouldRetransmitFrame)) := by
        refine untracked.requeue rfl rfl fun frame member => ?_
        refine (mem_append.mp member).imp id fun again data => ?_
        exact untracked.recorded level _ (SortedMap.find?_eq_some_iff.mp found) frame
          (mem_filter.mp again).1 data
      exact requeued.forgetPacket level packetNumber rfl
  | drop permitted =>
    rename_i level
    have cleared : Holding test (c.clearSpace level) :=
      holding.update rfl (fun _ member => absurd member not_mem_nil)
        fun _ member => absurd member not_mem_nil
    unfold dropLevelKeys
    split <;> exact ⟨cleared.pending, cleared.recorded⟩
  | migrate _ => exact holding.requeue rfl rfl fun _ => .inl
  | retire found retires permitted =>
    rename_i stream streamId
    have removed : Holding test { c.retirePeerBidirectionalState streamId with
        sendStreams := c.sendStreams.erase streamId } := holding.filterPending _ rfl
    unfold retireStream grantPeerStream
    split
    · refine removed.requeue rfl rfl fun frame member => ?_
      refine (mem_append.mp member).imp id fun new data => ?_
      rw [mem_singleton.mp new] at data
      cases data
    · exact removed

/-- A STREAM frame as its stream made it. -/
def Staged (log : Log) (c : Connection) : Frame → Prop
  | .stream streamId offset data fin =>
    (log streamId).Contains offset data fin ∧
      (c.isRetiredPeerBidirectional streamId = true ∨
        ∃ stream, c.sendStreams.find? streamId = some stream ∧
          offset + data.length ≤ stream.nextOffset ∧
          (fin = true → stream.resetQueued = false →
            offset + data.length = (log streamId).data.length))
  | _ => True

theorem Staged.written (staged : Staged log c frame) : frame.Written log := by
  cases frame with
  | stream _ _ _ _ => exact staged.1
  | _ => exact trivial

theorem Staged.advance (advances : Advances c d) (staged : Staged log c frame) :
    Staged log d frame := by
  cases frame with
  | stream streamId offset data fin =>
    obtain ⟨contains, gone | ⟨stream, found, within, final⟩⟩ := staged
    · exact ⟨contains, .inl (advances.retired streamId gone)⟩
    · refine ⟨contains, (advances.streams streamId stream found).imp id ?_⟩
      rintro ⟨later, held, grown, fresh⟩
      exact ⟨later, held, within.trans grown, fun last live => final last (fresh live)⟩
  | _ => exact trivial

/-- An endpoint's send states and STREAM frames against what was written. -/
structure Sender (log : Log) (c : Connection) : Prop where
  streams : ∀ streamId stream, c.sendStreams.find? streamId = some stream →
    stream.Matches (log streamId)
  unopened : ∀ streamId, c.sendStreams.find? streamId = none →
    c.isRetiredPeerBidirectional streamId = false → log streamId = .empty
  held : Holding (Staged log c) c

theorem Sender.sendStream (sender : Sender log c)
    (live : c.isRetiredPeerBidirectional streamId = false) :
    (c.sendStream streamId).Matches (log streamId) := by
  unfold Connection.sendStream
  cases found : c.sendStreams.find? streamId with
  | none =>
    rw [sender.unopened streamId found live]
    exact .empty
  | some stream => exact sender.streams streamId stream found

theorem Sender.unopened_of (sender : Sender log c) (advances : Advances c d) (streamId : Nat)
    (absent : d.sendStreams.find? streamId = none)
    (live : d.isRetiredPeerBidirectional streamId = false) : log streamId = .empty := by
  refine sender.unopened streamId ?_ (Bool.eq_false_iff.mpr fun gone => ?_)
  · cases found : c.sendStreams.find? streamId with
    | none => rfl
    | some stream =>
      rcases advances.streams streamId stream found with gone | ⟨later, held, -⟩
      · exact absurd (live.symm.trans gone) (by simp)
      · exact absurd (absent.symm.trans held) (by simp)
  · exact absurd (live.symm.trans (advances.retired streamId gone)) (by simp)

theorem matches_insert (sender : Sender log c)
    (made : d.sendStreams = c.sendStreams.insert streamId stream)
    (new : stream.Matches (log streamId)) (other : Nat) (held : SendStream)
    (found : d.sendStreams.find? other = some held) : held.Matches (log other) := by
  rw [made, SortedMap.find?_insert] at found
  split at found
  · rename_i here
    cases found
    exact here ▸ new
  · exact sender.streams other held found

/-- The send states after a change that writes nothing. -/
theorem Sender.matches_change (neverAppends : ∀ streamId data fin, ¬ rules.append streamId data fin)
    (sender : Sender log c) (retirement : Retirement c) (change : Change rules c d)
    (streamId : Nat) (stream : SendStream) (found : d.sendStreams.find? streamId = some stream) :
    stream.Matches (log streamId) := by
  have abandon {before : SendStream} {writing : Writing} (matches_ : before.Matches writing)
      (resetAt : Bool) (resetReliableSize : Nat) :
      { before with
        buffer := [], bufferOffset := 0, resetQueued := true, resetAcked := false
        resetAt, resetReliableSize }.Matches writing :=
    ⟨matches_.within, le_rfl, (by simp), fun _ => rfl, matches_.finQueued,
      fun sent => ⟨(matches_.finSent sent).1, rfl⟩⟩
  cases change with
  | quiet quiet =>
    have sends : d.sendStreams = c.sendStreams := congrArg Ledger.sendStreams quiet.ledger
    exact sender.streams streamId stream (sends ▸ found)
  | receive _ only _ =>
    have sends : d.sendStreams = c.sendStreams := congrArg Ledger.sendStreams only.ledger
    exact sender.streams streamId stream (sends ▸ found)
  | enqueue _ | shed _ _ | transmit _ _ | spend _ | migrate _ =>
    exact sender.streams streamId stream found
  | touch live => exact matches_insert sender rfl (sender.sendStream live) _ _ found
  | append live open_ fresh permitted => exact absurd permitted (neverAppends _ _ _)
  | reset live fresh permitted =>
    exact matches_insert sender rfl (abandon (sender.sendStream live) _ _) _ _ found
  | resetAt live fresh within permitted =>
    exact matches_insert sender rfl (abandon (sender.sendStream live) true _) _ _ found
  | stage =>
    rename_i target
    rcases stageOneStreamFrame_cases c target with same |
      ⟨before, held, ⟨chunkSize, some_, fits, staged⟩ | ⟨drained, queued, -, staged⟩⟩
    · exact sender.streams streamId stream (same ▸ found)
    · rw [staged] at found
      exact matches_insert sender rfl
        ((sender.streams target before held).stageChunk some_ fits).1 _ _ found
    · rw [staged] at found
      exact matches_insert sender rfl
        ((sender.streams target before held).stageFin drained queued).1 _ _ found
  | acknowledge permitted =>
    rename_i level packetNumber
    obtain ⟨frames, answered⟩ :=
      acknowledgePacket_sends (c.untrack level packetNumber) level packetNumber streamId
    rw [answered, Option.map_eq_some_iff] at found
    obtain ⟨before, held, rfl⟩ := found
    exact (sender.streams streamId before held).same
      (SendStream.foldl_answered_same streamId frames before)
  | lose =>
    rename_i level nowMs packetNumber span
    obtain ⟨-, -, -, sends⟩ :=
      losePacket_same (c.untrack level packetNumber, span) level nowMs packetNumber
    exact sender.streams streamId stream (sends ▸ found)
  | drop _ =>
    unfold dropLevelKeys at found
    split at found <;> exact sender.streams streamId stream found
  | release held peer =>
    rename_i before target
    have matches_ := sender.sendStream (retirement.sends target before held)
    have released : { c.sendStream target with peerCreditPending := true }.Matches (log target) :=
      ⟨matches_.within, matches_.compacted, matches_.unsent, matches_.abandoned,
        matches_.finQueued, matches_.finSent⟩
    exact matches_insert sender rfl released _ _ found
  | retire held retires permitted =>
    rw [retireStream_sendStreams, SortedMap.find?_erase] at found
    split at found
    · contradiction
    · exact sender.streams streamId stream found

theorem Sender.change (neverAppends : ∀ streamId data fin, ¬ rules.append streamId data fin)
    (driverQuiet : ∀ frame, ¬ rules.queue frame) (retirement : Retirement c)
    (sender : Sender log c) (change : Change rules c d) : Sender log d := by
  have advances : Advances c d := Change.advances retirement change
  refine ⟨sender.matches_change neverAppends retirement change, sender.unopened_of advances,
    (sender.held.imp fun frame _ staged => staged.advance advances).change driverQuiet change
      ?_ ?_⟩
  · rintro streamId stream chunkSize found some_ fits rfl
    obtain ⟨-, contains, length⟩ := (sender.streams streamId stream found).stageChunk some_ fits
    refine ⟨contains, .inr ⟨_, SortedMap.find?_insert_self _ _ _, ?_, fun final _ => ?_⟩⟩
    · rw [length]
      exact le_rfl
    · have total := (sender.streams streamId stream found).remaining
        ((sender.streams streamId stream found).fresh (some_.trans_le fits))
      simp only [Bool.and_eq_true, decide_eq_true_eq] at final
      rw [length]
      omega
  · rintro streamId stream found drained queued rfl
    have matches_ := sender.streams streamId stream found
    refine ⟨(matches_.stageFin drained queued).2,
      .inr ⟨_, SortedMap.find?_insert_self _ _ _, le_rfl, fun _ live => ?_⟩⟩
    have total := matches_.remaining live
    rw [drained] at total
    exact total

theorem Changes.advances (retirement : Retirement c) (changes : Changes rules c d) :
    Advances c d := by
  have both : Retirement d ∧ Advances c d := by
    induction changes with
    | refl => exact ⟨retirement, .refl c⟩
    | tail _ change ih => exact ⟨ih.1.change change, ih.2.trans (Change.advances ih.1 change)⟩
  exact both.2

theorem Sender.changes (neverAppends : ∀ streamId data fin, ¬ rules.append streamId data fin)
    (driverQuiet : ∀ frame, ¬ rules.queue frame) (retirement : Retirement c)
    (sender : Sender log c) (changes : Changes rules c d) : Sender log d := by
  have both : Retirement d ∧ Sender log d := by
    induction changes with
    | refl => exact ⟨retirement, sender⟩
    | tail _ change ih =>
      exact ⟨ih.1.change change, ih.2.change neverAppends driverQuiet ih.1 change⟩
  exact both.2

theorem append_kept (stream : SendStream) (data : Bytes) (fin : Bool) :
    (stream.append data fin).nextOffset = stream.nextOffset ∧
      (stream.append data fin).resetQueued = stream.resetQueued := by
  unfold SendStream.append SendStream.compact
  split <;> exact ⟨rfl, rfl⟩

theorem advances_append (c : Connection) (streamId : Nat) (data : Bytes) (fin : Bool) :
    Advances c (c.setSendStream streamId ((c.sendStream streamId).append data fin)) := by
  refine .insert rfl rfl rfl fun before found => ?_
  obtain ⟨nextOffset, resetQueued⟩ := append_kept (c.sendStream streamId) data fin
  rw [nextOffset, resetQueued, sendStream_of_found found]
  exact ⟨le_rfl, id⟩

theorem Staged.append {frame : Frame} (staged : Staged log c frame) {streamId : Nat}
    (opened : (log streamId).fin = false) (data : Bytes) (fin : Bool) :
    Staged (log.append streamId data fin) c frame := by
  cases frame with
  | stream target offset piece last =>
    by_cases same : target = streamId
    · subst same
      refine ⟨Frame.Written.append staged.written opened data fin, staged.2.imp id ?_⟩
      rintro ⟨stream, found, within, -⟩
      refine ⟨stream, found, within, fun final => ?_⟩
      exact absurd (opened.symm.trans (staged.1.fin final)) (by simp)
    · simp only [Staged, Log.append, Function.update_of_ne same]
      exact staged
  | _ => exact trivial

theorem Sender.append (sender : Sender log c) {streamId : Nat}
    (live : c.isRetiredPeerBidirectional streamId = false)
    (open_ : (c.sendStream streamId).finQueued = false)
    (fresh : (c.sendStream streamId).resetQueued = false) (data : Bytes) (fin : Bool) :
    Sender (log.append streamId data fin)
      (c.setSendStream streamId ((c.sendStream streamId).append data fin)) := by
  have matches_ := sender.sendStream live
  have opened : (log streamId).fin = false := matches_.finQueued ▸ open_
  have elsewhere : ∀ other ≠ streamId, log.append streamId data fin other = log other :=
    fun other different => Function.update_of_ne different _ _
  have advances := advances_append c streamId data fin
  refine ⟨fun other stream found => ?_, fun other absent alive => ?_, ?_⟩
  · simp only [setSendStream, SortedMap.find?_insert] at found
    split at found
    · rename_i same
      cases found
      rw [same, Log.append, Function.update_self]
      exact matches_.append fresh open_ data fin
    · rename_i different
      rw [elsewhere other different]
      exact sender.streams other stream found
  · rw [elsewhere other]
    · exact sender.unopened_of advances other absent alive
    · rintro rfl
      simp [setSendStream] at absent
  · have held : Holding (Staged (log.append streamId data fin)
        (c.setSendStream streamId ((c.sendStream streamId).append data fin))) c :=
      sender.held.imp fun frame _ staged => (staged.append opened data fin).advance advances
    exact ⟨held.pending, held.recorded⟩

theorem Sender.start (setup : Setup) : Sender (fun _ => .empty) (start setup) :=
  { streams := fun _ _ found => by cases found
    unopened := fun _ _ _ => rfl
    held := ⟨fun _ _ member => absurd member not_mem_nil,
      fun _ _ member => absurd member not_mem_nil⟩ }

end Connection
end SwStack.Quic
