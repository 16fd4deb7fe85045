import SwStack.Quic.StreamCredit
import SwStack.Quic.FlowCredit

/-! Where FIN frames end: at the end of what was written, as long as no stream is reset
between the queueing of its end and the last byte before it. -/
open List

namespace SwStack.Quic

open SwStack.Lib

/-- A STREAM frame carries a piece of what was written, and a FIN its last one. -/
def Frame.Ends (log : Log) : Frame → Prop
  | .stream streamId offset data fin =>
    (log streamId).Contains offset data fin ∧
      (fin = true → offset + data.length = (log streamId).data.length)
  | _ => True

theorem Frame.Ends.append {log : Log} {frame : Frame} (ends : frame.Ends log) {streamId : Nat}
    (opened : (log streamId).fin = false) (data : Bytes) (fin : Bool) :
    frame.Ends (log.append streamId data fin) := by
  cases frame with
  | stream target offset piece last =>
    by_cases same : target = streamId
    · subst same
      have written : Frame.Written log (.stream target offset piece last) := ends.1
      refine ⟨written.append opened data fin, fun final => ?_⟩
      exact absurd (opened.symm.trans (ends.1.fin final)) (by simp)
    · simp only [Frame.Ends, Log.append, Function.update_of_ne same]
      exact ends
  | _ => exact trivial

/-- Nothing is unsent once the end is queued. -/
def SendStream.Drained (stream : SendStream) : Prop :=
  stream.finQueued = true → stream.remaining = 0

namespace Connection

variable {c d : Connection}

/-- Every FIN that is held ends its stream, and a stream reset with its end queued was sent
to that end. -/
structure Ending (log : Log) (c : Connection) : Prop where
  reset : ∀ streamId stream, c.sendStreams.find? streamId = some stream →
    stream.resetQueued = true → stream.finQueued = true →
    stream.nextOffset = (log streamId).data.length
  held : Holding (Frame.Ends log) c

/-- The resets of an endpoint whose streams are drained first. -/
def drainedRules : Rules :=
  { quietRules fun _ => True with reset := SendStream.Drained, retire := fun _ => True }

theorem Ending.reset_insert (ending : Ending log c)
    (made : d.sendStreams = c.sendStreams.insert streamId stream)
    (new : stream.resetQueued = true → stream.finQueued = true →
      stream.nextOffset = (log streamId).data.length) (other : Nat) (held : SendStream)
    (found : d.sendStreams.find? other = some held) (queued : held.resetQueued = true)
    (final : held.finQueued = true) : held.nextOffset = (log other).data.length := by
  rw [made, SortedMap.find?_insert] at found
  split at found
  · rename_i same
    cases found
    exact same ▸ new queued final
  · exact ending.reset other held found queued final

theorem Ending.sendStream (ending : Ending log c)
    (queued : (c.sendStream streamId).resetQueued = true)
    (final : (c.sendStream streamId).finQueued = true) :
    (c.sendStream streamId).nextOffset = (log streamId).data.length := by
  unfold Connection.sendStream at queued final ⊢
  cases found : c.sendStreams.find? streamId with
  | none =>
    rw [found] at queued
    cases queued
  | some stream =>
    rw [found] at queued final
    exact ending.reset streamId stream found queued final

/-- The send states after a change that writes nothing. -/
theorem Ending.reset_change (sender : Sender log c) (ending : Ending log c)
    (change : Change drainedRules c d) (streamId : Nat) (stream : SendStream)
    (found : d.sendStreams.find? streamId = some stream) (queued : stream.resetQueued = true)
    (final : stream.finQueued = true) : stream.nextOffset = (log streamId).data.length := by
  -- a drained stream ends where the writing does
  have whole {target : Nat} (live : c.isRetiredPeerBidirectional target = false)
      (fresh : (c.sendStream target).resetQueued = false)
      (drained : (c.sendStream target).Drained)
      (final : (c.sendStream target).finQueued = true) :
      (c.sendStream target).nextOffset = (log target).data.length := by
    have total := (sender.sendStream live).remaining fresh
    rwa [drained final, Nat.add_zero] at total
  cases change with
  | quiet quiet =>
    have sends : d.sendStreams = c.sendStreams := congrArg Ledger.sendStreams quiet.ledger
    exact ending.reset streamId stream (sends ▸ found) queued final
  | receive _ only _ =>
    have sends : d.sendStreams = c.sendStreams := congrArg Ledger.sendStreams only.ledger
    exact ending.reset streamId stream (sends ▸ found) queued final
  | enqueue _ | shed _ _ | transmit _ _ | spend _ | migrate _ =>
    exact ending.reset streamId stream found queued final
  | touch live =>
    exact ending.reset_insert rfl ending.sendStream _ _ found queued final
  | append live open_ fresh permitted => exact absurd permitted id
  | reset live fresh drained =>
    refine ending.reset_insert rfl (fun _ final => ?_) _ _ found queued final
    exact whole live fresh drained final
  | resetAt live fresh within drained =>
    refine ending.reset_insert rfl (fun _ final => ?_) _ _ found queued final
    exact whole live fresh drained final
  | stage =>
    rename_i target
    rcases stageOneStreamFrame_cases c target with same |
      ⟨before, held, ⟨chunkSize, some_, fits, staged⟩ | ⟨drained, last, -, staged⟩⟩
    · exact ending.reset streamId stream (same ▸ found) queued final
    · rw [staged] at found
      refine ending.reset_insert rfl (fun reset => ?_) _ _ found queued final
      have fresh := (sender.streams target before held).fresh (some_.trans_le fits)
      exact absurd (fresh.symm.trans reset) (by simp)
    · rw [staged] at found
      refine ending.reset_insert rfl (fun reset last => ?_) _ _ found queued final
      exact ending.reset target before held reset last
  | acknowledge permitted =>
    rename_i level packetNumber
    obtain ⟨frames, answered⟩ :=
      acknowledgePacket_sends (c.untrack level packetNumber) level packetNumber streamId
    rw [answered, Option.map_eq_some_iff] at found
    obtain ⟨before, held, rfl⟩ := found
    have same := SendStream.foldl_answered_same streamId frames before
    rw [same.nextOffset]
    exact ending.reset streamId before held (same.resetQueued ▸ queued) (same.finQueued ▸ final)
  | lose =>
    rename_i level nowMs packetNumber span
    obtain ⟨-, -, -, sends⟩ :=
      losePacket_same (c.untrack level packetNumber, span) level nowMs packetNumber
    exact ending.reset streamId stream (sends ▸ found) queued final
  | drop _ =>
    unfold dropLevelKeys at found
    split at found <;> exact ending.reset streamId stream found queued final
  | release held peer =>
    refine ending.reset_insert rfl (fun reset last => ?_) _ _ found queued final
    exact ending.sendStream reset last
  | retire held retires permitted =>
    rw [retireStream_sendStreams, SortedMap.find?_erase] at found
    split at found
    · contradiction
    · exact ending.reset streamId stream found queued final

theorem Ending.change (sender : Sender log c) (ending : Ending log c)
    (change : Change drainedRules c d) : Ending log d := by
  refine ⟨ending.reset_change sender change,
    ending.held.change (fun _ => id) change ?_ ?_⟩
  · intro streamId stream chunkSize found some_ fits _
    have matches_ := sender.streams streamId stream found
    obtain ⟨-, contains, length⟩ := matches_.stageChunk some_ fits
    refine ⟨contains, fun final => ?_⟩
    have total := matches_.remaining (matches_.fresh (some_.trans_le fits))
    simp only [Bool.and_eq_true, decide_eq_true_eq] at final
    omega
  · intro streamId stream found drained queued _
    have matches_ := sender.streams streamId stream found
    refine ⟨(matches_.stageFin drained queued).2, fun _ => ?_⟩
    cases fresh : stream.resetQueued with
    | false =>
      have total := matches_.remaining fresh
      rwa [drained] at total
    | true => exact ending.reset streamId stream found fresh queued

/-- All that the sending of stream data rests on. -/
structure Writer (log : Log) (c : Connection) : Prop where
  retirement : Retirement c
  sender : Sender log c
  ending : Ending log c

theorem Writer.changes (writer : Writer log c) (changes : Changes drainedRules c d) :
    Writer log d := by
  induction changes with
  | refl => exact writer
  | tail _ change ih =>
    exact ⟨ih.retirement.change change,
      ih.sender.change (fun _ _ _ => id) (fun _ => id) ih.retirement change,
      ih.ending.change ih.sender change⟩

theorem Writer.quiet (writer : Writer log c) (quiet : Quiet c d) : Writer log d :=
  writer.changes quiet.changes

theorem Writer.append (writer : Writer log c) {streamId : Nat}
    (live : c.isRetiredPeerBidirectional streamId = false)
    (open_ : (c.sendStream streamId).finQueued = false)
    (fresh : (c.sendStream streamId).resetQueued = false) (data : Bytes) (fin : Bool) :
    Writer (log.append streamId data fin)
      (c.setSendStream streamId ((c.sendStream streamId).append data fin)) := by
  have opened : (log streamId).fin = false :=
    (writer.sender.sendStream live).finQueued ▸ open_
  have appended : Change { drainedRules with append := fun _ _ _ => True } c
      (c.setSendStream streamId ((c.sendStream streamId).append data fin)) :=
    .append live open_ fresh trivial
  have held : Holding (Frame.Ends (log.append streamId data fin)) c :=
    writer.ending.held.imp fun frame _ ends => ends.append opened data fin
  refine ⟨writer.retirement.change appended, writer.sender.append live open_ fresh data fin,
    fun other stream found queued final => ?_, held.pending, held.recorded⟩
  simp only [setSendStream, SortedMap.find?_insert] at found
  split at found
  · cases found
    rw [(append_kept (c.sendStream streamId) data fin).2, fresh] at queued
    cases queued
  · rename_i different
    rw [Log.append, Function.update_of_ne different]
    exact writer.ending.reset other stream found queued final

/-- An input resets only a stream that is drained. -/
def ResetsDrained (c : Connection) (input : Input) : Prop :=
  ∀ streamId, resets input = some streamId → (c.sendStream streamId).Drained

theorem Writer.perform (writer : Writer log c) (quiet : DriverQuiet input)
    (drained : ResetsDrained c input) : Writer (c.writes log input) (c.perform input) := by
  have others (silent : ∀ streamId data fin, input ≠ .sendStreamData streamId data fin) :
      Writer log (c.perform input) := by
    refine writer.changes (perform_changes writer.retirement ?_)
    constructor
    · exact fun streamId data fin same => silent streamId data fin same
    · exact drained
    · exact fun level frame same data => absurd ((quiet level frame same).symm.trans data) (by simp)
    · exact fun _ _ => trivial
    · unfold ReceivePermits
      split <;> intros <;> trivial
    · exact fun _ _ => trivial
    · exact fun _ => trivial
    · exact fun _ _ _ _ _ _ => trivial
  cases input with
  | sendStreamData streamId data fin =>
    unfold writes Connection.perform
    rcases sendStreamData_cases writer.retirement streamId data fin with
      ⟨refused, same⟩ | ⟨accepted, mid, before, live, open_, fresh, after⟩
    · dsimp only
      rw [if_neg refused]
      exact writer.quiet same
    · dsimp only
      rw [if_pos accepted]
      exact ((writer.quiet before).append live open_ fresh data fin).quiet after
  | _ => exact others (by simp)

theorem Writer.start (setup : Setup) : Writer (fun _ => .empty) (start setup) :=
  { retirement := .start setup
    sender := .start setup
    ending := {
      reset := fun _ _ found => by cases found
      held := ⟨fun _ _ member => absurd member not_mem_nil,
        fun _ _ member => absurd member not_mem_nil⟩ } }

end Connection
end SwStack.Quic

namespace SwStack.Quic

open SwStack.Lib

theorem take_append_slice (piece : PieceOf content start data) :
    content.take start ++ data = content.take (start + data.length) := by
  rw [take_add]
  congr 1
  exact piece.same

theorem PieceOf.append {content data : Bytes} {start : Nat} (piece : PieceOf content start data)
    (more : Bytes) : PieceOf (content ++ more) start data := by
  have within := piece.within
  refine ⟨?_, piece.same.trans ?_⟩
  · rw [length_append]
    omega
  · unfold slice
    rw [drop_append_of_le_length (by omega), take_append_of_le_length]
    rw [length_drop]
    omega

/-- A receive side against what was written and what was read of it. -/
structure Stream.Follows (writing : Writing) (read : Bytes) (s : Stream) : Prop where
  pieces : s.Retains (PieceOf writing.data)
  within : s.readOffset ≤ writing.data.length
  read : read = writing.data.take s.readOffset
  fin : s.finReceived = true → s.finalOffset = writing.data.length ∧ writing.fin = true

namespace Stream.Follows

variable {read : Bytes} {s received : Stream}

theorem receive (follows : s.Follows writing read) {fin : Bool}
    (contains : writing.Contains offset data fin)
    (ends : fin = true → offset + data.length = writing.data.length)
    (accepted : s.receive offset data fin = .ok received) : received.Follows writing read := by
  obtain ⟨kept, same, finReceived, finalOffset⟩ :=
    Stream.receive_spec (PieceOf.divides writing.data) follows.pieces
      ⟨contains.within, contains.data⟩ accepted
  refine ⟨kept, same ▸ follows.within, same ▸ follows.read, fun final => ?_⟩
  rw [finReceived, Bool.or_eq_true] at final
  rw [finalOffset]
  split
  · rename_i last
    exact ⟨ends last, contains.fin last⟩
  · rename_i open_
    exact follows.fin (final.resolve_right open_)

theorem readContiguous (follows : s.Follows writing read) :
    s.readContiguous.1.Follows writing (read ++ s.readContiguous.2) := by
  obtain ⟨kept, finReceived, finalOffset, moved, tiles⟩ :=
    Stream.readContiguous_spec (PieceOf.divides writing.data) follows.pieces
  have piece := tiles.pieceOf follows.within
  refine ⟨kept, moved ▸ piece.within, ?_, fun final => ?_⟩
  · rw [moved, follows.read, take_append_slice piece]
  · rw [finalOffset]
    exact follows.fin (finReceived ▸ final)

theorem append (follows : s.Follows writing read) (opened : writing.fin = false) (data : Bytes)
    (fin : Bool) : s.Follows (writing.append data fin) read := by
  refine ⟨fun fragment member => (follows.pieces fragment member).append data, ?_, ?_,
    fun final => absurd (opened.symm.trans (follows.fin final).2) (by simp)⟩
  · have within := follows.within
    rw [Writing.append, length_append]
    omega
  · rw [follows.read, Writing.append, take_append_of_le_length follows.within]

end Stream.Follows

namespace Connection

/-- What an input returns of the streams, behind all that was read before. -/
def reading (c : Connection) (reads : Nat → Bytes) : Input → Nat → Bytes
  | .readStream streamId =>
    Function.update reads streamId (reads streamId ++ (c.readStream streamId).2)
  | _ => reads

/-- A receiver has read a beginning of each stream and holds pieces of the rest. -/
structure Arrived (log : Log) (reads : Nat → Bytes) (c : Connection) : Prop where
  streams : ∀ streamId stream, c.receive.streams.find? streamId = some stream →
    stream.Follows (log streamId) (reads streamId)
  unread : ∀ streamId, c.receive.streams.find? streamId = none →
    c.isRetiredPeerBidirectional streamId = false → reads streamId = []
  ordered : ∀ streamId, reads streamId <+: (log streamId).data

theorem Arrived.start (setup : Setup) : Arrived (fun _ => .empty) (fun _ => []) (start setup) :=
  { streams := fun _ _ found => by cases found
    unread := fun _ _ _ => rfl
    ordered := fun _ => nil_prefix }

theorem Arrived.append (arrived : Arrived log reads c) {streamId : Nat}
    (opened : (log streamId).fin = false) (data : Bytes) (fin : Bool) :
    Arrived (log.append streamId data fin) reads c := by
  refine ⟨fun other stream found => ?_, arrived.unread, fun other => ?_⟩
  all_goals
    unfold Log.append
    rw [Function.update_apply]
    split
  · rename_i same
    subst same
    exact (arrived.streams other stream found).append opened data fin
  · exact arrived.streams other stream found
  · rename_i same
    subst same
    exact (arrived.ordered other).trans (prefix_append _ _)
  · exact arrived.ordered other

/-- The streams hold the same data, but for those retired. -/
structure SameData (before after : Connection) : Prop where
  retired : ∀ streamId, before.isRetiredPeerBidirectional streamId = true →
    after.isRetiredPeerBidirectional streamId = true
  streams : ∀ streamId, after.receive.streams.find? streamId =
      before.receive.streams.find? streamId ∨
    after.isRetiredPeerBidirectional streamId = true ∧
      after.receive.streams.find? streamId = none

theorem SameData.of_streams (role : d.setup.role = c.setup.role)
    (ranges : d.retiredPeerBidiRanges = c.retiredPeerBidiRanges)
    (streams : d.receive.streams = c.receive.streams) : SameData c d :=
  ⟨fun streamId gone => (isRetired_congr role ranges streamId).trans gone,
    fun streamId => .inl (by rw [streams])⟩

theorem SameData.trans (left : SameData first second)
    (right : SameData second third) : SameData first third := by
  refine ⟨fun streamId gone => right.retired streamId (left.retired streamId gone),
    fun streamId => ?_⟩
  rcases right.streams streamId with same | gone
  · rcases left.streams streamId with before | ⟨gone, empty⟩
    · exact .inl (same.trans before)
    · exact .inr ⟨right.retired streamId gone, same.trans empty⟩
  · exact .inr gone

/-- Everything but the arrival and the reading of data. -/
def datalessRules : Rules :=
  { quietRules fun _ => True with
    append := fun _ _ _ => True, queue := fun _ => True, retire := fun _ => True
    receive := fun c d => d.receive.streams = c.receive.streams }

theorem Change.sameData (retirement : Retirement c) (change : Change datalessRules c d) :
    SameData c d := by
  cases change with
  | quiet quiet =>
    exact .of_streams (congrArg Ledger.role quiet.ledger) (congrArg Ledger.retired quiet.ledger)
      (by rw [quiet.receive])
  | receive _ only permitted =>
    exact .of_streams (congrArg Ledger.role only.ledger) (congrArg Ledger.retired only.ledger)
      permitted
  | enqueue _ | shed _ _ | touch _ | append _ _ _ _ | reset _ _ _ | resetAt _ _ _ _
  | transmit _ _ | spend _ | migrate _ | release _ _ => exact .of_streams rfl rfl rfl
  | stage =>
    rename_i streamId
    rcases stageOneStreamFrame_cases c streamId with same |
      ⟨stream, -, ⟨chunkSize, -, -, staged⟩ | ⟨-, -, -, staged⟩⟩
    · rw [same]
      exact .of_streams rfl rfl rfl
    all_goals
      rw [staged]
      exact .of_streams rfl rfl rfl
  | acknowledge _ =>
    unfold acknowledgePacket
    split <;> exact .of_streams rfl rfl rfl
  | lose =>
    unfold losePacket
    split <;> exact .of_streams rfl rfl rfl
  | drop _ =>
    unfold dropLevelKeys
    split <;> exact .of_streams rfl rfl rfl
  | retire found retires permitted =>
    rename_i stream streamId
    have peer : c.isPeerInitiatedBidirectional streamId = true := by
      refine retirement.released streamId stream found ?_
      simp only [Connection.retires, Bool.and_eq_true] at retires
      exact retires.1.1
    have gone := retireStream_isRetired retirement peer
    refine ⟨fun other was => (gone other).mpr (.inl was), fun other => ?_⟩
    rw [retireStream_tables, SortedMap.find?_erase]
    split
    · rename_i same
      exact .inr ⟨(gone other).mpr (.inr same), rfl⟩
    · exact .inl rfl

theorem Changes.sameData (retirement : Retirement c) (changes : Changes datalessRules c d) :
    SameData c d := by
  induction changes with
  | refl => exact .of_streams rfl rfl rfl
  | tail earlier change ih =>
    exact ih.trans (Change.sameData (retirement.changes earlier) change)

theorem Arrived.sameData (arrived : Arrived log reads c) (same : SameData c d) :
    Arrived log reads d := by
  refine ⟨fun streamId stream found => ?_, fun streamId absent live => ?_, arrived.ordered⟩
  · rcases same.streams streamId with before | ⟨-, empty⟩
    · exact arrived.streams streamId stream (before.symm.trans found)
    · exact absurd (empty.symm.trans found) (by simp)
  · rcases same.streams streamId with before | ⟨gone, -⟩
    · refine arrived.unread streamId (before.symm.trans absent) (Bool.eq_false_iff.mpr fun was => ?_)
      exact absurd (live.symm.trans (same.retired streamId was)) (by simp)
    · exact absurd (live.symm.trans gone) (by simp)

theorem accountBytes_same (c : Connection) (streamId offset length : Nat) :
    (c.accountBytes streamId offset length).1.receive.streams = c.receive.streams ∧
      (c.accountBytes streamId offset length).1.setup = c.setup := by
  unfold accountBytes accountStream touchStreamFlow
  cases (c.streamFlowControl streamId).onDataReceived offset length with
  | error message => exact ⟨rfl, rfl⟩
  | ok flow =>
    unfold andThen accountConnection
    dsimp only
    split
    · split <;> exact ⟨rfl, rfl⟩
    · exact ⟨rfl, rfl⟩

theorem establishFinalSize_same (c : Connection) (streamId stop : Nat) (fin : Bool) :
    (c.establishFinalSize streamId stop fin).receive.streams = c.receive.streams ∧
      (c.establishFinalSize streamId stop fin).setup = c.setup := by
  unfold establishFinalSize
  split <;> exact ⟨rfl, rfl⟩

/-- A STREAM frame changes one stream at most: it is opened, or the data is received. -/
theorem processStreamFrame_streams (c : Connection) (streamId offset : Nat) (data : Bytes)
    (fin : Bool) :
    (c.processStreamFrame streamId offset data fin).1.receive.streams = c.receive.streams ∨
      c.isRetiredPeerBidirectional streamId = false ∧ ∃ stream,
        (c.processStreamFrame streamId offset data fin).1.receive.streams =
          c.receive.streams.insert streamId stream ∧
        (stream = c.reassemblyStream streamId ∨
          (c.reassemblyStream streamId).receive offset data fin = .ok stream) := by
  unfold processStreamFrame
  split
  · exact .inl rfl
  · rename_i live
    rcases enforceStreamLimit_cases c streamId with
      accepted | ⟨d, message, refused, -, receive, -⟩
    · rw [accepted]
      dsimp only [andThen]
      split
      · exact .inl rfl
      · obtain ⟨established, setup⟩ :=
          establishFinalSize_same c streamId (offset + data.length) fin
        obtain ⟨streams, kept⟩ := accountBytes_same
          (c.establishFinalSize streamId (offset + data.length) fin) streamId offset data.length
        generalize (c.establishFinalSize streamId (offset + data.length) fin).accountBytes streamId
          offset data.length = accounted at streams kept ⊢
        obtain ⟨next, _ | message⟩ := accounted <;> dsimp only at streams kept ⊢
        · have same : next.reassemblyStream streamId = c.reassemblyStream streamId := by
            unfold reassemblyStream localStreamWindow locallyInitiated
            rw [streams, established, kept, setup]
          refine .inr ⟨by simpa using live, ?_⟩
          dsimp only [reassemble]
          rw [same, streams, established]
          split
          · exact ⟨_, rfl, .inl rfl⟩
          · rename_i received
            exact ⟨_, rfl, .inr received⟩
        · exact .inl (streams.trans established)
    · rw [refused]
      exact .inl (congrArg Tables.streams receive)

theorem Arrived.insert (arrived : Arrived log reads c)
    {read : Bytes} (live : c.isRetiredPeerBidirectional streamId = false)
    (same : SameRetired c d)
    (made : d.receive.streams = c.receive.streams.insert streamId stream)
    (follows : stream.Follows (log streamId) read) :
    Arrived log (Function.update reads streamId read) d := by
  refine ⟨fun other held found => ?_, fun other absent alive => ?_, fun other => ?_⟩
  · rw [made, SortedMap.find?_insert] at found
    rw [Function.update_apply]
    split at found
    · rename_i here
      cases found
      rw [if_pos here]
      exact here ▸ follows
    · rename_i different
      rw [if_neg different]
      exact arrived.streams other held found
  · rw [made, SortedMap.find?_insert] at absent
    split at absent
    · contradiction
    · rename_i different
      rw [Function.update_of_ne different]
      rw [isRetired_congr same.role same.ranges] at alive
      exact arrived.unread other absent alive
  · rw [Function.update_apply]
    split
    · rename_i here
      subst here
      rw [follows.read]
      exact take_prefix _ _
    · exact arrived.ordered other

theorem Arrived.reassemblyStream (arrived : Arrived log reads c)
    (live : c.isRetiredPeerBidirectional streamId = false) :
    (c.reassemblyStream streamId).Follows (log streamId) (reads streamId) := by
  unfold Connection.reassemblyStream
  cases found : c.receive.streams.find? streamId with
  | none =>
    rw [arrived.unread streamId found live]
    exact ⟨fun _ member => absurd member not_mem_nil, Nat.zero_le _, rfl, (by intros; contradiction)⟩
  | some stream => exact arrived.streams streamId stream found

theorem Arrived.processStreamFrame (arrived : Arrived log reads c)
    (ends : (Frame.stream streamId offset data fin).Ends log) :
    Arrived log reads (c.processStreamFrame streamId offset data fin).1 := by
  have changes : Changes (quietRules fun _ => True) c
      (c.processStreamFrame streamId offset data fin).1 :=
    processStreamFrame_changes (fun _ _ _ => trivial) c offset data fin
  have same : SameRetired c (c.processStreamFrame streamId offset data fin).1 :=
    Changes.sameRetired (fun _ => id) changes
  rcases processStreamFrame_streams c streamId offset data fin with
    streams | ⟨live, stream, made, opened | received⟩
  · exact arrived.sameData (.of_streams same.role same.ranges streams)
  · have after := arrived.insert live same made (opened ▸ arrived.reassemblyStream live)
    rwa [Function.update_eq_self] at after
  · have after := arrived.insert live same made
      ((arrived.reassemblyStream live).receive ends.1 ends.2 received)
    rwa [Function.update_eq_self] at after

theorem creditFlowControl_streams (c : Connection) (streamId bytes : Nat) :
    (c.creditFlowControl streamId bytes).receive.streams = c.receive.streams := by
  obtain ⟨flow, -, receive, -⟩ := creditFlowControl_spec c streamId bytes
  rw [receive]

theorem consumeStream_streams (c : Connection) (streamId : Nat) :
    (c.consumeStream streamId).1.receive.streams =
      (c.readContiguous streamId).1.receive.streams := by
  have credited (c : Connection) (bytes : Nat) :
      (c.creditRead streamId bytes).receive.streams = c.receive.streams := by
    unfold creditRead
    split
    · rfl
    · exact creditFlowControl_streams c streamId bytes
  have applied (c : Connection) :
      (c.applyReliableReset streamId).receive.streams = c.receive.streams := by
    unfold applyReliableReset
    split
    · split
      · unfold creditDiscarded
        split
        · exact creditFlowControl_streams _ streamId _
        · rfl
      · rfl
    · rfl
  exact (applied _).trans (credited _ _)

/-- A read returns the next piece of what was written. -/
theorem Arrived.consumeStream (arrived : Arrived log reads c) (retirement : Retirement c)
    (streamId : Nat) :
    Arrived log (Function.update reads streamId
      (reads streamId ++ (c.consumeStream streamId).2)) (c.consumeStream streamId).1 := by
  have changes : Changes (quietRules fun _ => True) c (c.consumeStream streamId).1 :=
    consumeStream_changes retirement fun _ _ _ => trivial
  have same : SameRetired c (c.consumeStream streamId).1 :=
    Changes.sameRetired (fun _ => id) changes
  have streams := consumeStream_streams c streamId
  unfold Connection.readContiguous at streams
  unfold Connection.consumeStream at same streams ⊢
  unfold Connection.readContiguous at same streams ⊢
  cases found : c.receive.streams.find? streamId with
  | none =>
    simp only [found] at same streams ⊢
    rw [append_nil, Function.update_eq_self]
    exact arrived.sameData (.of_streams same.role same.ranges streams)
  | some stream =>
    simp only [found] at same streams ⊢
    have live : c.isRetiredPeerBidirectional streamId = false := by
      refine Bool.eq_false_iff.mpr fun gone => ?_
      exact absurd (found.symm.trans (retirement.tables streamId gone).streams) (by simp)
    exact arrived.insert live same streams (arrived.streams streamId stream found).readContiguous

/-- The frame of the peer's that an input brings. -/
def brings : Input → Option Frame
  | .processFrame _ _ _ frame => some frame
  | .injectEarlyStream streamId offset data fin => some (.stream streamId offset data fin)
  | _ => none

/-- Every input leaves the receiver with a beginning of what was written, if the frames it
brings are pieces of that. -/
theorem Arrived.perform (arrived : Arrived log reads c) (retirement : Retirement c)
    (genuine : ∀ frame, brings input = some frame → frame.Ends log) :
    Arrived log (c.reading reads input) (c.perform input) := by
  have others (receive : ReceivePermits datalessRules input)
      (same : c.reading reads input = reads) :
      Arrived log (c.reading reads input) (c.perform input) := by
    rw [same]
    refine arrived.sameData (Changes.sameData retirement (perform_changes retirement ?_))
    constructor
    · exact fun _ _ _ _ => trivial
    · exact fun _ _ => trivial
    · exact fun _ _ _ _ => trivial
    · exact fun _ _ => trivial
    · exact receive
    · exact fun _ _ => trivial
    · exact fun _ => trivial
    · exact fun _ _ _ _ _ _ => trivial
  cases input with
  | readStream streamId =>
    have changes : Changes (quietRules fun _ => True) c (c.consumeStream streamId).1 :=
      consumeStream_changes retirement fun _ _ _ => trivial
    have retired : Changes datalessRules (c.consumeStream streamId).1
        (c.consumeStream streamId).1.retireAcknowledgedPeerStreams :=
      retireAcknowledgedPeerStreams_changes _ fun _ _ _ _ => trivial
    exact (arrived.consumeStream retirement streamId).sameData
      (Changes.sameData (retirement.changes changes) retired)
  | injectEarlyStream streamId offset data fin =>
    exact arrived.processStreamFrame (genuine _ rfl)
  | processFrame level mode clock frame =>
    cases frame with
    | stream streamId offset data fin => exact arrived.processStreamFrame (genuine _ rfl)
    | resetStream streamId errorCode finalSize => exact others (fun _ _ _ same => same) rfl
    | resetStreamAt streamId errorCode finalSize reliableSize =>
      exact others (fun _ _ _ same => same) rfl
    | maxStreamData streamId maximum =>
      refine others (fun before after _ _ receive => ?_) rfl
      have same : after.receive.streams = before.receive.streams := by rw [receive]
      exact same
    | _ => exact others trivial rfl
  | _ => exact others trivial rfl

end Connection
end SwStack.Quic
