import SwStack.Quic.FlowCredit
import SwStack.Quic.StreamCredit

/-! Receive flow control over whole runs: what is credited was received, and once only. -/
namespace SwStack.Quic

open SwStack.Lib

namespace Connection

variable {c d : Connection} {streamId : Nat} {flows : SortedMap Nat StreamFlowControl}

/-- Nothing that flow control reads differs but for the streams retired. -/
structure Released (before after : Connection) : Prop where
  role : after.setup.role = before.setup.role
  params : after.setup.localParams = before.setup.localParams
  connection : after.connectionFlow =
    { before.connectionFlow with peerMaxData := after.connectionFlow.peerMaxData }
  retired : ∀ streamId, before.isRetiredPeerBidirectional streamId = true →
    after.isRetiredPeerBidirectional streamId = true
  tables : ∀ streamId, (after.receive.streamFlow.find? streamId =
        before.receive.streamFlow.find? streamId ∧
      after.account streamId = before.account streamId) ∨
    after.isRetiredPeerBidirectional streamId = true ∧
      after.receive.streamFlow.find? streamId = none ∧
      after.account streamId = .empty (before.localStreamWindow streamId)

theorem Released.of_tables (role : d.setup.role = c.setup.role)
    (params : d.setup.localParams = c.setup.localParams)
    (connection : d.connectionFlow =
      { c.connectionFlow with peerMaxData := d.connectionFlow.peerMaxData })
    (ranges : d.retiredPeerBidiRanges = c.retiredPeerBidiRanges)
    (receive : d.receive =
      { c.receive with peerStreamMaxData := d.receive.peerStreamMaxData }) : Released c d := by
  refine ⟨role, params, connection, fun streamId gone =>
    (isRetired_congr role ranges streamId).trans gone, fun streamId => .inl ⟨?_, ?_⟩⟩
  · rw [receive]
  · refine account_congr (localStreamWindow_congr role params streamId) ?_ ?_ ?_ ?_ ?_ <;>
      rw [receive]

theorem Released.refl (c : Connection) : Released c c :=
  .of_tables rfl rfl rfl rfl rfl

theorem Released.trans (left : Released first second)
    (right : Released second third) : Released first third := by
  refine ⟨right.role.trans left.role, right.params.trans left.params, ?_,
    fun streamId gone => right.retired streamId (left.retired streamId gone), fun streamId => ?_⟩
  · rw [right.connection, left.connection]
  · rcases right.tables streamId with ⟨flow, same⟩ | ⟨gone, flow, empty⟩
    · rcases left.tables streamId with ⟨flow', same'⟩ | ⟨gone, flow', empty⟩
      · exact .inl ⟨flow.trans flow', same.trans same'⟩
      · exact .inr ⟨right.retired streamId gone, flow.trans flow', same.trans empty⟩
    · exact .inr ⟨gone, flow, localStreamWindow_congr left.role left.params streamId ▸ empty⟩

theorem Released.retire (retirement : Retirement c)
    (peer : c.isPeerInitiatedBidirectional streamId = true) :
    Released c (c.retireStream streamId) := by
  have gone := retireStream_isRetired retirement peer
  have granted (c : Connection) : c.grantPeerStream.setup = c.setup ∧
      c.grantPeerStream.connectionFlow = c.connectionFlow := by
    unfold grantPeerStream
    split <;> exact ⟨rfl, rfl⟩
  have params : (c.retireStream streamId).setup = c.setup ∧
      (c.retireStream streamId).connectionFlow = c.connectionFlow :=
    ⟨(granted _).1, (granted _).2⟩
  have window (other : Nat) :
      (c.retireStream streamId).localStreamWindow other = c.localStreamWindow other :=
    localStreamWindow_congr (congrArg Setup.role params.1) (congrArg Setup.localParams params.1) other
  refine ⟨congrArg Setup.role params.1, congrArg Setup.localParams params.1, ?_,
    fun other was => (gone other).mpr (.inl was), fun other => ?_⟩
  · rw [params.2]
  · by_cases same : other = streamId
    · subst same
      refine .inr ⟨(gone other).mpr (.inr rfl), ?_, ?_⟩
      · rw [retireStream_tables, SortedMap.find?_erase, if_pos rfl]
      · unfold account streamFlowControl SortedMap.contains
        rw [window, retireStream_tables]
        simp only [SortedMap.find?_erase, if_pos]
        rfl
    · refine .inl ⟨?_, account_congr (window other) ?_ ?_ ?_ ?_ ?_⟩ <;>
        rw [retireStream_tables, SortedMap.find?_erase, if_neg same]

/-- Everything but data, resets and reads. -/
def uncreditedRules : Rules :=
  { append := fun _ _ _ => True, queue := fun _ => True, acknowledged := fun _ => True
    receive := fun c d => d.connectionFlow = c.connectionFlow ∧
      d.receive = { c.receive with peerStreamMaxData := d.receive.peerStreamMaxData }
    drop := fun _ _ => True, migrate := fun _ => True, retire := fun _ => True }

theorem Change.released (retirement : Retirement c) (change : Change uncreditedRules c d) :
    Released c d := by
  have same {d : Connection} (setup : d.setup = c.setup) (receive : d.receive = c.receive)
      (connection : d.connectionFlow = c.connectionFlow)
      (ranges : d.retiredPeerBidiRanges = c.retiredPeerBidiRanges) : Released c d :=
    .of_tables (congrArg Setup.role setup) (congrArg Setup.localParams setup)
      (by rw [connection]) ranges (by rw [receive])
  cases change with
  | quiet quiet =>
    exact .of_tables (congrArg Ledger.role quiet.ledger) (congrArg Ledger.localParams quiet.ledger)
      quiet.credit (congrArg Ledger.retired quiet.ledger) (by rw [quiet.receive])
  | receive _ only permitted =>
    exact .of_tables (congrArg Ledger.role only.ledger) (congrArg Ledger.localParams only.ledger)
      (by rw [permitted.1]) (congrArg Ledger.retired only.ledger) permitted.2
  | enqueue _ | shed _ _ | touch _ | append _ _ _ _ | reset _ _ _ | resetAt _ _ _ _ | transmit _ _
  | spend _ | migrate _ | release _ _ => exact same rfl rfl rfl rfl
  | stage =>
    rename_i streamId
    rcases stageOneStreamFrame_cases c streamId with same |
      ⟨stream, -, ⟨chunkSize, -, -, staged⟩ | ⟨-, -, -, staged⟩⟩
    · rw [same]
      exact .refl c
    all_goals
      rw [staged]
      exact same rfl rfl rfl rfl
  | acknowledge _ =>
    unfold acknowledgePacket
    split <;> exact same rfl rfl rfl rfl
  | lose =>
    unfold losePacket
    split <;> exact same rfl rfl rfl rfl
  | drop _ =>
    unfold dropLevelKeys
    split <;> exact same rfl rfl rfl rfl
  | retire found retires permitted =>
    rename_i stream streamId
    refine .retire retirement (retirement.released streamId stream found ?_)
    simp only [Connection.retires, Bool.and_eq_true] at retires
    exact retires.1.1

theorem Changes.released (retirement : Retirement c) (changes : Changes uncreditedRules c d) :
    Released c d := by
  induction changes with
  | refl => exact .refl c
  | tail earlier change ih =>
    exact ih.trans (Change.released (retirement.changes earlier) change)

theorem Released.balanced (released : Released c d) (balanced : Balanced flows c) :
    Balanced flows d := by
  have window (streamId : Nat) : d.localStreamWindow streamId = c.localStreamWindow streamId :=
    localStreamWindow_congr released.role released.params streamId
  refine ⟨fun streamId => ?_, fun streamId flow found => ?_, fun streamId flow found => ?_,
    balanced.kept, ?_, ?_, ?_, ?_⟩
  · rw [window]
    rcases released.tables streamId with ⟨-, same⟩ | ⟨-, -, empty⟩
    · rw [same]
      exact balanced.accounts streamId
    · rw [empty]
      exact .empty _
  · rcases released.tables streamId with ⟨same, -⟩ | ⟨-, erased, -⟩
    · exact balanced.live streamId flow (same.symm.trans found)
    · exact absurd (erased.symm.trans found) (by simp)
  · rcases balanced.gone streamId flow found with held | retired
    · rcases released.tables streamId with ⟨same, -⟩ | ⟨gone, -⟩
      · exact .inl (same.trans held)
      · exact .inr gone
    · exact .inr (released.retired streamId retired)
  · rw [released.connection]
    exact balanced.consumed
  · rw [released.connection]
    exact balanced.received
  · rw [released.connection, released.params]
    exact balanced.opened
  · rw [released.connection, released.params]
    exact balanced.limit

/-- The limits that the peer was told only rise, until a stream is retired. -/
structure Raises (before after : Connection) : Prop where
  connection : before.connectionFlow.maxDataLimit ≤ after.connectionFlow.maxDataLimit
  retired : ∀ streamId, before.isRetiredPeerBidirectional streamId = true →
    after.isRetiredPeerBidirectional streamId = true
  streams : ∀ streamId flow, before.receive.streamFlow.find? streamId = some flow →
    after.isRetiredPeerBidirectional streamId = true ∨
      ∃ later, after.receive.streamFlow.find? streamId = some later ∧
        flow.maxDataLimit ≤ later.maxDataLimit

theorem Raises.trans (left : Raises first second)
    (right : Raises second third) : Raises first third := by
  refine ⟨left.connection.trans right.connection, fun streamId gone =>
    right.retired streamId (left.retired streamId gone), fun streamId flow found => ?_⟩
  rcases left.streams streamId flow found with gone | ⟨middle, held, below⟩
  · exact .inl (right.retired streamId gone)
  · rcases right.streams streamId middle held with gone | ⟨later, present, above⟩
    · exact .inl gone
    · exact .inr ⟨later, present, below.trans above⟩

theorem Credits.raises (credits : Credits streamId c d) : Raises c d := by
  have touches := credits.touches
  refine ⟨touches.raises, fun other gone => (touches.live other).trans gone,
    fun other flow found => .inr ?_⟩
  by_cases same : other = streamId
  · subst same
    exact touches.flow flow found
  · exact ⟨flow, (touches.others.streamFlow other same).symm.trans found, le_rfl⟩

theorem Released.raises (released : Released c d) : Raises c d := by
  refine ⟨?_, released.retired, fun streamId flow found => ?_⟩
  · rw [released.connection]
  · rcases released.tables streamId with ⟨same, -⟩ | ⟨gone, -⟩
    · exact .inr ⟨flow, same.trans found, le_rfl⟩
    · exact .inl gone

/-- The stream an input brings data or a final size for, and up to which offset, unless it
is refused before that is accounted. -/
def accounted (c : Connection) : Input → Option (Nat × Nat)
  | .processFrame _ _ _ (.stream streamId offset data fin)
  | .injectEarlyStream streamId offset data fin =>
    if c.isRetiredPeerBidirectional streamId || (c.enforceStreamLimit streamId).2.isSome ||
      c.violatesFinalSize streamId (offset + data.length) fin then none
    else some (streamId, offset + data.length)
  | .processFrame _ _ _ (.resetStream streamId _ finalSize) =>
    if c.isRetiredPeerBidirectional streamId || (c.enforceStreamLimit streamId).2.isSome ||
      c.finalSizeConflicts streamId finalSize then none
    else some (streamId, finalSize)
  | .processFrame _ _ _ (.resetStreamAt streamId _ finalSize reliableSize) =>
    if !c.setup.localParams.resetStreamAt || decide (finalSize < reliableSize) ||
      c.isRetiredPeerBidirectional streamId || (c.enforceStreamLimit streamId).2.isSome ||
      c.finalSizeConflicts streamId finalSize then none
    else some (streamId, finalSize)
  | _ => none

/-- No byte is credited twice by a read, and none is credited that the connection did not
count. -/
structure CreditsOnce (c : Connection) (input : Input) : Prop where
  read : ∀ streamId, input = .readStream streamId → c.ReadsOnce streamId
  admits : ∀ streamId stop, c.accounted input = some (streamId, stop) → c.Admits streamId stop

/-- The state in which an input is done but for the streams it retires. -/
def beforeRetirement (c : Connection) (input : Input) : Connection :=
  (c.settled input).getD (c.perform input)

/-- What one input does, up to the retirement of streams. -/
inductive Books (before after : Connection) : Prop where
  | credits {streamId : Nat} : before.isRetiredPeerBidirectional streamId = false →
      Credits streamId before after → Books before after
  | released : Released before after → Books before after

theorem Books.raises (books : Books c d) : Raises c d := by
  cases books with
  | credits live credits => exact credits.raises
  | released released => exact released.raises

theorem Books.balanced (books : Books c d) (balanced : Balanced flows c) :
    Balanced (flows.overlay d.receive.streamFlow) d := by
  cases books with
  | credits live credits => exact credits.balanced live balanced
  | released released =>
    have kept := released.balanced balanced
    rw [kept.overlay_self]
    exact kept

theorem beforeRetirement_resetStream (c : Connection) (level : Level) (mode : ReceiveMode)
    (clock : Clock) (streamId errorCode finalSize : Nat) :
    c.beforeRetirement (.processFrame level mode clock (.resetStream streamId errorCode finalSize)) =
      if c.isRetiredPeerBidirectional streamId then c
      else (c.receiveReset streamId errorCode finalSize).1 := by
  change (c.settledReset streamId errorCode finalSize).getD
    (c.processResetStreamFrame streamId errorCode finalSize).1 = _
  unfold settledReset processResetStreamFrame
  split
  · rfl
  · obtain ⟨d, _ | message⟩ := c.receiveReset streamId errorCode finalSize <;> rfl

theorem beforeRetirement_resetStreamAt (c : Connection) (level : Level) (mode : ReceiveMode)
    (clock : Clock) (streamId errorCode finalSize reliableSize : Nat) :
    c.beforeRetirement (.processFrame level mode clock
        (.resetStreamAt streamId errorCode finalSize reliableSize)) =
      if !c.setup.localParams.resetStreamAt then c
      else if finalSize < reliableSize then c
      else if c.isRetiredPeerBidirectional streamId then c
      else (c.receiveResetAt streamId errorCode finalSize reliableSize).1 := by
  change (c.settledResetAt streamId errorCode finalSize reliableSize).getD
    (c.processResetStreamAtFrame streamId errorCode finalSize reliableSize).1 = _
  unfold settledResetAt processResetStreamAtFrame
  split
  · rfl
  · split
    · rfl
    · split
      · rfl
      · obtain ⟨d, _ | message⟩ :=
          c.receiveResetAt streamId errorCode finalSize reliableSize <;> rfl

theorem consumeStream_of_lacks (lacks : c.receive.Lacks streamId) :
    (c.consumeStream streamId).1 = c := by
  unfold consumeStream readContiguous creditRead applyReliableReset
  rw [lacks.streams]
  rw [if_pos List.length_nil, lacks.pendingReliableResets]

theorem beforeRetirement_books (retirement : Retirement c)
    (once : CreditsOnce c input) : Books c (c.beforeRetirement input) := by
  have others (receive : ReceivePermits uncreditedRules input) :
      Books c (c.beforeRetirement input) := by
    refine .released ?_
    unfold beforeRetirement
    cases tried : c.settled input with
    | some settled =>
      exact Changes.released retirement
        (settled_changes retirement (fun _ _ => trivial) receive tried)
    | none =>
      refine Changes.released retirement (perform_changes retirement ?_)
      constructor
      · exact fun _ _ _ _ => trivial
      · exact fun _ _ => trivial
      · exact fun _ _ _ _ => trivial
      · exact fun _ _ => trivial
      · exact receive
      · exact fun _ _ => trivial
      · exact fun _ => trivial
      · exact fun _ _ _ _ _ _ => trivial
  have data (streamId offset : Nat) (bytes : Bytes) (fin : Bool)
      (admits : ∀ target stop, (if c.isRetiredPeerBidirectional streamId ||
          (c.enforceStreamLimit streamId).2.isSome ||
          c.violatesFinalSize streamId (offset + bytes.length) fin then none
        else some (streamId, offset + bytes.length)) = some (target, stop) →
        c.Admits target stop) :
      Books c (c.processStreamFrame streamId offset bytes fin).1 := by
    unfold processStreamFrame
    split
    · exact .released (.refl c)
    · rename_i live
      have live : c.isRetiredPeerBidirectional streamId = false := by simpa using live
      refine .credits live (processStreamFrame_credits fun accepted agrees => admits _ _ ?_)
      rw [live, accepted, agrees]
      rfl
  cases input with
  | readStream streamId =>
    have credits := consumeStream_credits (once.read streamId rfl)
    cases live : c.isRetiredPeerBidirectional streamId with
    | false => exact .credits live credits
    | true =>
      have same : c.beforeRetirement (.readStream streamId) = c :=
        consumeStream_of_lacks (retirement.tables streamId live)
      rw [same]
      exact .released (.refl c)
  | injectEarlyStream streamId offset bytes fin => exact data streamId offset bytes fin once.admits
  | processFrame level mode clock frame =>
    cases frame with
    | stream streamId offset bytes fin => exact data streamId offset bytes fin once.admits
    | resetStream streamId errorCode finalSize =>
      have admits := once.admits streamId finalSize
      unfold accounted at admits
      rw [beforeRetirement_resetStream]
      split
      · exact .released (.refl c)
      · rename_i live
        refine .credits (by simpa using live) (receiveReset_credits fun accepted agrees => admits ?_)
        simp [live, accepted, agrees]
    | resetStreamAt streamId errorCode finalSize reliableSize =>
      have admits := once.admits streamId finalSize
      unfold accounted at admits
      rw [beforeRetirement_resetStreamAt]
      split
      · exact .released (.refl c)
      · rename_i negotiated
        split
        · exact .released (.refl c)
        · rename_i covered
          split
          · exact .released (.refl c)
          · rename_i live
            refine .credits (by simpa using live)
              (receiveResetAt_credits fun accepted agrees => admits ?_)
            simp [negotiated, covered, live, accepted, agrees]
    | maxStreamData streamId maximum =>
      exact others fun _ _ _ connection receive => ⟨connection, receive⟩
    | _ => exact others trivial
  | _ => exact others trivial

theorem perform_released (retirement : Retirement c) :
    Released (c.beforeRetirement input) (c.perform input) := by
  unfold beforeRetirement
  cases tried : c.settled input with
  | none => exact .refl _
  | some settled =>
    obtain ⟨known, -⟩ := settled_sameRetired retirement tried
    have retired : Changes uncreditedRules settled (c.perform input) :=
      (retireAcknowledgedPeerStreams_changes settled fun _ _ _ _ => trivial).tail
        (.quiet (perform_of_settled tried))
    exact Changes.released known retired

theorem Balanced.start (setup : Setup) : Balanced ∅ (start setup) :=
  { accounts := fun _ => .empty _
    live := by intros; contradiction
    gone := by simp
    kept := by simp
    consumed := rfl
    received := rfl
    opened := rfl
    limit := Nat.le_add_left _ _ }

end Connection

/-- A run with the last flow control of every stream it has seen, retired ones included. -/
structure FlowHistory where
  connection : Connection
  flows : SortedMap Nat StreamFlowControl

namespace FlowHistory

open Connection

variable {h later : FlowHistory}

def start (setup : Setup) : FlowHistory := ⟨.start setup, ∅⟩

def after (h : FlowHistory) (input : Input) : FlowHistory :=
  { connection := h.connection.perform input
    flows := h.flows.overlay (h.connection.beforeRetirement input).receive.streamFlow }

def step (h : FlowHistory) (input : Input) : Option FlowHistory := some (h.after input)

abbrev Run (allowed : Connection → Input → Prop) (first : FlowHistory) : FlowHistory → Prop :=
  Reaches step (fun h input => allowed h.connection input) first

/-- Each stream is credited for what was read of it, or for its whole final size once a
reset discarded the rest; the connection's counters are the sums over all streams; and the
limits are one window ahead of the credit at most. -/
structure Accounting (h : FlowHistory) : Prop where
  streams : ∀ streamId flow, h.flows.find? streamId = some flow →
    flow.bytesConsumed ≤ flow.highestReceivedOffset
  live : ∀ streamId flow, h.connection.receive.streamFlow.find? streamId = some flow →
    h.flows.find? streamId = some flow ∧
      flow.maxDataLimit ≤ flow.bytesConsumed + h.connection.localStreamWindow streamId
  once : ∀ streamId, (h.connection.account streamId).flow.bytesConsumed =
      (h.connection.account streamId).readOffset ∨
    h.connection.receive.resetStreams.contains streamId = true ∧
      h.connection.receive.streamFinalSize.find? streamId =
        some (h.connection.account streamId).flow.bytesConsumed
  consumed : h.connection.connectionFlow.bytesConsumed =
    SortedMap.total StreamFlowControl.bytesConsumed h.flows
  received : h.connection.connectionFlow.bytesReceived =
    SortedMap.total StreamFlowControl.highestReceivedOffset h.flows
  connection : h.connection.connectionFlow.bytesConsumed ≤
    h.connection.connectionFlow.bytesReceived
  limit : h.connection.connectionFlow.maxDataLimit ≤
    h.connection.connectionFlow.bytesConsumed + h.connection.setup.localParams.initialMaxData

theorem Accounting.of_balanced (balanced : Connection.Balanced h.flows h.connection) :
    h.Accounting := by
  refine ⟨balanced.kept, fun streamId flow found => ⟨balanced.live streamId flow found, ?_⟩,
    fun streamId => ?_, balanced.consumed, balanced.received, ?_, balanced.limit⟩
  · have limit := (balanced.accounts streamId).limit
    unfold account streamFlowControl at limit
    rw [found] at limit
    exact limit
  · rcases (balanced.accounts streamId).credited with read | ⟨reset, final, -⟩
    · exact .inl read
    · exact .inr ⟨reset, final⟩
  · rw [balanced.consumed, balanced.received]
    refine SortedMap.total_le_total fun entry member => ?_
    exact balanced.kept entry.1 entry.2 (SortedMap.find?_of_mem member)

theorem after_balanced (retirement : Retirement h.connection)
    (balanced : Connection.Balanced h.flows h.connection)
    (once : CreditsOnce h.connection input) :
    Connection.Balanced (h.after input).flows (h.after input).connection ∧
      Raises h.connection (h.after input).connection := by
  have books := beforeRetirement_books retirement once
  have released : Released (h.connection.beforeRetirement input) (h.connection.perform input) :=
    perform_released retirement
  exact ⟨released.balanced (books.balanced balanced), books.raises.trans released.raises⟩

theorem balanced_of_run (retirement : Retirement h.connection)
    (balanced : Connection.Balanced h.flows h.connection) (reached : Run CreditsOnce h later) :
    Retirement later.connection ∧ Connection.Balanced later.flows later.connection ∧
      Raises h.connection later.connection := by
  induction reached with
  | refl =>
    exact ⟨retirement, balanced, le_rfl, fun _ => id, fun _ flow found =>
      .inr ⟨flow, found, le_rfl⟩⟩
  | next _ once stepped ih =>
    cases stepped
    obtain ⟨known, kept, raises⟩ := ih
    obtain ⟨next, further⟩ := after_balanced known kept once
    exact ⟨perform_retirement known _, next, raises.trans further⟩

/-- Flow control is right in every run that credits no byte twice and none uncounted, and
its limits never fall. -/
theorem flowAccounting_of_run (setup : Setup) (reached : Run CreditsOnce (start setup) h) :
    h.Accounting ∧ ∀ later, Run CreditsOnce h later → Raises h.connection later.connection := by
  obtain ⟨retirement, balanced, -⟩ :=
    balanced_of_run (.start setup) (Connection.Balanced.start setup) reached
  exact ⟨.of_balanced balanced, fun later further =>
    (balanced_of_run retirement balanced further).2.2⟩

/-- A server is sent three bytes and reads them. -/
def readOnce : FlowHistory :=
  ([.processFrame .application .active ⟨10, 1000, 1000, fun _ => 3⟩ (.stream 0 0 [7, 8, 9] false),
    .readStream 0] : List Input).foldl after (start (.default .server))

/-- The stream is reset before it is read. -/
def readTwice : FlowHistory :=
  ([.processFrame .application .active ⟨10, 1000, 1000, fun _ => 3⟩ (.stream 0 0 [7, 8, 9] false),
    .processFrame .application .active ⟨11, 1000, 1000, fun _ => 3⟩ (.resetStream 0 5 3),
    .readStream 0] : List Input).foldl after (start (.default .server))

theorem flowAccounting_readOnce : readOnce.Accounting ∧
    ∀ later, Run CreditsOnce readOnce later → Raises readOnce.connection later.connection := by
  refine flowAccounting_of_run (.default .server)
    (.next (.next .refl ⟨(by simp), fun streamId stop found => ?_⟩ rfl)
      ⟨fun streamId same stream found _ => ?_, fun _ _ found => by cases found⟩ rfl)
  · cases found
    exact fun _ _ => by decide
  · cases same
    exact Nat.zero_le _

/-- The reset credits the bytes it discards, and the read credits them again. -/
theorem flowAccounting_readTwice : ¬ ∀ setup h, Run (fun _ _ => True) (start setup) h →
    h.Accounting ∧ ∀ later, Run (fun _ _ => True) h later →
      Raises h.connection later.connection := by
  intro claim
  have reached : Run (fun _ _ => True) (start (.default .server)) readTwice :=
    .next (.next (.next .refl trivial rfl) trivial rfl) trivial rfl
  obtain ⟨accounting, -⟩ := claim _ _ reached
  have twice := accounting.connection
  have counted : readTwice.connection.connectionFlow.bytesConsumed = 6 ∧
      readTwice.connection.connectionFlow.bytesReceived = 3 := by decide +kernel
  omega

end FlowHistory
end SwStack.Quic
