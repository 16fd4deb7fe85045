import SwStack.Quic.Retirement
import SwStack.Quic.Reassembly

/-! The books of receive flow control: what the tables hold of each stream, what the
connection counts of all of them, and the changes that keep the two in balance. -/
namespace SwStack.Quic

open SwStack.Lib

/-- A counter takes credit, and its limit moves one window ahead of it or stays. -/
structure StreamFlowControl.Credited (bytes : Nat) (before after : StreamFlowControl) : Prop where
  window : after.initialWindow = before.initialWindow
  highest : after.highestReceivedOffset = before.highestReceivedOffset
  consumed : after.bytesConsumed = before.bytesConsumed + bytes
  rises : before.maxDataLimit ≤ after.maxDataLimit
  limit : after.maxDataLimit ≤ max before.maxDataLimit (after.bytesConsumed + after.initialWindow)

structure ConnectionFlowControl.Credited (bytes : Nat) (before after : ConnectionFlowControl) :
    Prop where
  window : after.initialWindow = before.initialWindow
  received : after.bytesReceived = before.bytesReceived
  consumed : after.bytesConsumed = before.bytesConsumed + bytes
  rises : before.maxDataLimit ≤ after.maxDataLimit
  limit : after.maxDataLimit ≤ max before.maxDataLimit (after.bytesConsumed + after.initialWindow)

/-- What the tables hold on the receive side of one stream. -/
structure Account where
  flow : StreamFlowControl
  stream : Option Stream
  reset : Bool
  pending : Option PendingReliableReset
  finalSize : Option Nat

variable {flow : StreamFlowControl}

namespace Account

/-- How much of the stream the application has read. -/
def readOffset (account : Account) : Nat :=
  match account.stream with
  | some stream => stream.readOffset
  | none => 0

/-- Credit for what was read or discarded by a reset, none for anything else, and a limit
that is one window ahead at most. -/
structure Balanced (window : Nat) (account : Account) : Prop where
  opened : account.flow.initialWindow = window
  consumed : account.flow.bytesConsumed ≤ account.flow.highestReceivedOffset
  limit : account.flow.maxDataLimit ≤ account.flow.bytesConsumed + window
  held : ∀ stream, account.stream = some stream →
    stream.readOffset ≤ account.flow.highestReceivedOffset ∧
      stream.Retains (EndsWithin account.flow.highestReceivedOffset)
  credited : account.flow.bytesConsumed = account.readOffset ∨
    account.reset = true ∧ account.finalSize = some account.flow.bytesConsumed ∧
      account.flow.highestReceivedOffset = account.flow.bytesConsumed
  pending : ∀ reset, account.pending = some reset →
    account.finalSize = some reset.finalSize ∧
      account.flow.highestReceivedOffset = reset.finalSize

/-- The account of a stream never heard of, or retired. -/
def empty (window : Nat) : Account :=
  { flow := .open_ window, stream := none, reset := false, pending := none, finalSize := none }

theorem Balanced.empty (window : Nat) : (Account.empty window).Balanced window :=
  { opened := rfl, consumed := le_rfl, limit := Nat.le_add_left _ _, held := by intros; contradiction
    credited := .inl rfl, pending := by intros; contradiction }

variable {window : Nat} {account : Account}

theorem Balanced.read_le (balanced : account.Balanced window) :
    account.readOffset ≤ account.flow.highestReceivedOffset := by
  unfold readOffset
  split
  · rename_i stream found
    exact (balanced.held stream found).1
  · exact Nat.zero_le _

/-- More of the stream is received, within its final size. -/
theorem Balanced.raise (balanced : account.Balanced window)
    (fits : ∀ finalSize, account.finalSize = some finalSize → stop ≤ finalSize) :
    Balanced window { account with flow := { account.flow with
      highestReceivedOffset := max account.flow.highestReceivedOffset stop } } := by
  constructor
  · exact balanced.opened
  · exact balanced.consumed.trans (le_max_left _ _)
  · exact balanced.limit
  · intro stream found
    obtain ⟨read, retains⟩ := balanced.held stream found
    refine ⟨read.trans (le_max_left _ _), fun fragment member => ?_⟩
    exact (retains fragment member).trans (le_max_left _ _)
  · rcases balanced.credited with read | ⟨reset, final, whole⟩
    · exact .inl read
    · refine .inr ⟨reset, final, ?_⟩
      have below := fits _ final
      dsimp only
      omega
  · intro reset found
    obtain ⟨final, whole⟩ := balanced.pending reset found
    have below := fits _ final
    refine ⟨final, ?_⟩
    dsimp only
    omega

/-- What a reset discards is credited up to the final size. -/
theorem Balanced.discard {finalSize : Nat}
    (balanced : account.Balanced window) (reset : account.reset = true)
    (final : account.finalSize = some finalSize)
    (whole : account.flow.highestReceivedOffset = finalSize)
    (credited : StreamFlowControl.Credited (finalSize - account.flow.bytesConsumed) account.flow
      flow) : Balanced window { account with flow } := by
  have consumed := balanced.consumed
  have amount := credited.consumed
  have highest := credited.highest
  constructor
  · exact credited.window.trans balanced.opened
  · dsimp only
    omega
  · have limit := credited.limit
    have before := balanced.limit
    have opened := balanced.opened
    have window := credited.window
    dsimp only
    omega
  · intro stream found
    dsimp only
    rw [credited.highest]
    exact balanced.held stream found
  · refine .inr ⟨reset, ?_, ?_⟩
    · dsimp only
      rw [final]
      congr 1
      omega
    · dsimp only
      omega
  · intro pending found
    dsimp only
    rw [credited.highest]
    exact balanced.pending pending found

/-- What a read returns is credited, unless it was discarded before. -/
theorem Balanced.read {stream : Stream} (balanced : account.Balanced window)
    (undiscarded : account.flow.bytesConsumed ≤ account.readOffset)
    (within : account.readOffset + bytes ≤ account.flow.highestReceivedOffset)
    (moved : stream.readOffset = account.readOffset + bytes)
    (retains : stream.Retains (EndsWithin account.flow.highestReceivedOffset))
    (credited : StreamFlowControl.Credited bytes account.flow flow) :
    Balanced window { account with flow, stream := some stream } := by
  have amount := credited.consumed
  have highest := credited.highest
  have even : account.flow.bytesConsumed = account.readOffset := by
    rcases balanced.credited with read | ⟨-, -, whole⟩
    · exact read
    · omega
  constructor
  · exact credited.window.trans balanced.opened
  · dsimp only
    omega
  · have limit := credited.limit
    have before := balanced.limit
    have opened := balanced.opened
    have window := credited.window
    dsimp only
    omega
  · intro held found
    cases found
    dsimp only
    rw [credited.highest, moved]
    exact ⟨within, retains⟩
  · refine .inl ?_
    change flow.bytesConsumed = stream.readOffset
    omega
  · intro pending found
    dsimp only
    rw [credited.highest]
    exact balanced.pending pending found

theorem Balanced.finish {finalSize : Nat} (balanced : account.Balanced window)
    (agrees : ∀ established, account.finalSize = some established → established = finalSize)
    {reset : Bool} (stays : account.reset = true → reset = true)
    {pending : Option PendingReliableReset}
    (waits : ∀ waiting, pending = some waiting → account.pending = some waiting ∨
      waiting.finalSize = finalSize ∧ account.flow.highestReceivedOffset = finalSize) :
    Balanced window { account with reset, pending, finalSize := some finalSize } := by
  constructor
  · exact balanced.opened
  · exact balanced.consumed
  · exact balanced.limit
  · exact balanced.held
  · rcases balanced.credited with read | ⟨was, final, whole⟩
    · exact .inl read
    · exact .inr ⟨stays was, congrArg some (agrees _ final).symm, whole⟩
  · intro waiting found
    rcases waits waiting found with before | ⟨final, whole⟩
    · obtain ⟨final, whole⟩ := balanced.pending waiting before
      exact ⟨congrArg some (agrees _ final).symm, whole⟩
    · exact ⟨congrArg some final.symm, whole.trans final.symm⟩

theorem Balanced.hold {stream : Stream}
    (balanced : account.Balanced window) (same : stream.readOffset = account.readOffset)
    (within : stream.readOffset ≤ account.flow.highestReceivedOffset)
    (retains : stream.Retains (EndsWithin account.flow.highestReceivedOffset)) :
    Balanced window { account with stream := some stream } := by
  constructor
  · exact balanced.opened
  · exact balanced.consumed
  · exact balanced.limit
  · intro held found
    cases found
    exact ⟨within, retains⟩
  · rcases balanced.credited with read | reset
    · exact .inl (read.trans same.symm)
    · exact .inr reset
  · exact balanced.pending

end Account

namespace Connection

variable {c d : Connection} {streamId : Nat} {flows : SortedMap Nat StreamFlowControl}

def account (c : Connection) (streamId : Nat) : Account :=
  { flow := c.streamFlowControl streamId
    stream := c.receive.streams.find? streamId
    reset := c.receive.resetStreams.contains streamId
    pending := c.receive.pendingReliableResets.find? streamId
    finalSize := c.receive.streamFinalSize.find? streamId }

/-- `flows` has the flow control of every stream there ever was, and the connection's
counters are its sums. -/
structure Balanced (flows : SortedMap Nat StreamFlowControl) (c : Connection) : Prop where
  accounts : ∀ streamId, (c.account streamId).Balanced (c.localStreamWindow streamId)
  live : ∀ streamId flow, c.receive.streamFlow.find? streamId = some flow →
    flows.find? streamId = some flow
  gone : ∀ streamId flow, flows.find? streamId = some flow →
    c.receive.streamFlow.find? streamId = some flow ∨
      c.isRetiredPeerBidirectional streamId = true
  kept : ∀ streamId flow, flows.find? streamId = some flow →
    flow.bytesConsumed ≤ flow.highestReceivedOffset
  consumed : c.connectionFlow.bytesConsumed =
    SortedMap.total StreamFlowControl.bytesConsumed flows
  received : c.connectionFlow.bytesReceived =
    SortedMap.total StreamFlowControl.highestReceivedOffset flows
  opened : c.connectionFlow.initialWindow = c.setup.localParams.initialMaxData
  limit : c.connectionFlow.maxDataLimit ≤
    c.connectionFlow.bytesConsumed + c.setup.localParams.initialMaxData

theorem localStreamWindow_congr (role : d.setup.role = c.setup.role)
    (params : d.setup.localParams = c.setup.localParams) (streamId : Nat) :
    d.localStreamWindow streamId = c.localStreamWindow streamId := by
  unfold localStreamWindow locallyInitiated
  rw [role, params]

theorem account_congr (window : d.localStreamWindow streamId = c.localStreamWindow streamId)
    (flow : d.receive.streamFlow.find? streamId = c.receive.streamFlow.find? streamId)
    (stream : d.receive.streams.find? streamId = c.receive.streams.find? streamId)
    (reset : d.receive.resetStreams.find? streamId = c.receive.resetStreams.find? streamId)
    (pending : d.receive.pendingReliableResets.find? streamId =
      c.receive.pendingReliableResets.find? streamId)
    (finalSize : d.receive.streamFinalSize.find? streamId =
      c.receive.streamFinalSize.find? streamId) :
    d.account streamId = c.account streamId := by
  unfold account streamFlowControl SortedMap.contains
  rw [window, flow, stream, reset, pending, finalSize]

/-- Only the tables of one live stream and the connection's counters change, limits only
rise and no flow control is lost. -/
structure Touches (streamId : Nat) (before after : Connection) : Prop where
  role : after.setup.role = before.setup.role
  params : after.setup.localParams = before.setup.localParams
  ranges : after.retiredPeerBidiRanges = before.retiredPeerBidiRanges
  others : before.receive.AgreeExcept streamId after.receive
  raises : before.connectionFlow.maxDataLimit ≤ after.connectionFlow.maxDataLimit
  flow : ∀ flow, before.receive.streamFlow.find? streamId = some flow →
    ∃ later, after.receive.streamFlow.find? streamId = some later ∧
      flow.maxDataLimit ≤ later.maxDataLimit

namespace Touches

theorem refl (streamId : Nat) (c : Connection) : Touches streamId c c :=
  ⟨rfl, rfl, rfl, .refl _ _, le_rfl, fun flow found => ⟨flow, found, le_rfl⟩⟩

theorem trans (left : Touches streamId first second)
    (right : Touches streamId second third) : Touches streamId first third := by
  refine ⟨right.role.trans left.role, right.params.trans left.params,
    right.ranges.trans left.ranges, left.others.trans right.others,
    left.raises.trans right.raises, fun flow found => ?_⟩
  obtain ⟨middle, held, below⟩ := left.flow flow found
  obtain ⟨later, present, above⟩ := right.flow middle held
  exact ⟨later, present, below.trans above⟩

theorem live (touches : Touches streamId c d) (other : Nat) :
    d.isRetiredPeerBidirectional other = c.isRetiredPeerBidirectional other :=
  isRetired_congr touches.role touches.ranges other

theorem window (touches : Touches streamId c d) (other : Nat) :
    d.localStreamWindow other = c.localStreamWindow other :=
  localStreamWindow_congr touches.role touches.params other

theorem account (touches : Touches streamId c d) (different : other ≠ streamId) :
    d.account other = c.account other :=
  account_congr (touches.window other) (touches.others.streamFlow other different).symm
    (touches.others.streams other different).symm
    (touches.others.resetStreams other different).symm
    (touches.others.pendingReliableResets other different).symm
    (touches.others.streamFinalSize other different).symm

theorem tables {tables : Tables} (agree : c.receive.AgreeExcept streamId tables)
    (flow : tables.streamFlow = c.receive.streamFlow) :
    Touches streamId c { c with receive := tables } :=
  ⟨rfl, rfl, rfl, agree, le_rfl, fun held found => ⟨held, flow ▸ found, le_rfl⟩⟩

end Touches

/-- A change of one live stream keeps the books, with that stream's flow control written
anew. -/
structure Credits (streamId : Nat) (before after : Connection) : Prop where
  touches : Touches streamId before after
  balanced : ∀ {flows}, before.isRetiredPeerBidirectional streamId = false →
    Balanced flows before → Balanced (flows.overlay after.receive.streamFlow) after

theorem Balanced.overlay_self (balanced : Balanced flows c) :
    flows.overlay c.receive.streamFlow = flows := by
  refine SortedMap.ext_find? fun streamId => ?_
  rw [SortedMap.find?_overlay]
  cases found : c.receive.streamFlow.find? streamId with
  | none => rfl
  | some flow => exact (balanced.live streamId flow found).symm

theorem Balanced.overlay_insert (balanced : Balanced flows c)
    (made : d.receive.streamFlow = c.receive.streamFlow.insert streamId flow) :
    flows.overlay d.receive.streamFlow = flows.insert streamId flow := by
  refine SortedMap.ext_find? fun other => ?_
  rw [SortedMap.find?_overlay, made, SortedMap.find?_insert, SortedMap.find?_insert]
  split
  · rfl
  · cases found : c.receive.streamFlow.find? other with
    | none => rfl
    | some held => exact (balanced.live other held found).symm

theorem Credits.trans (left : Credits streamId first second)
    (right : Credits streamId second third) : Credits streamId first third := by
  refine ⟨left.touches.trans right.touches, fun {flows} live balanced => ?_⟩
  have after := right.balanced ((left.touches.live streamId).trans live)
    (left.balanced live balanced)
  have same : (flows.overlay second.receive.streamFlow).overlay third.receive.streamFlow =
      flows.overlay third.receive.streamFlow := by
    refine SortedMap.ext_find? fun other => ?_
    simp only [SortedMap.find?_overlay]
    cases found : third.receive.streamFlow.find? other with
    | some flow => rfl
    | none =>
      have absent : second.receive.streamFlow.find? other = none := by
        by_cases here : other = streamId
        · subst here
          cases held : second.receive.streamFlow.find? other with
          | none => rfl
          | some flow =>
            obtain ⟨later, present, -⟩ := right.touches.flow flow held
            exact absurd (found.symm.trans present) (by simp)
        · exact (right.touches.others.streamFlow other here).trans found
      rw [absent]
      rfl
  exact same ▸ after

/-- The flow control of the stream and the connection's counters stay. -/
theorem Credits.keep (touches : Touches streamId c d)
    (flow : d.receive.streamFlow = c.receive.streamFlow)
    (connection : d.connectionFlow = c.connectionFlow)
    (here : (c.account streamId).Balanced (c.localStreamWindow streamId) →
      (d.account streamId).Balanced (c.localStreamWindow streamId)) : Credits streamId c d := by
  refine ⟨touches, fun {flows} _ balanced => ?_⟩
  rw [flow, balanced.overlay_self]
  refine ⟨fun other => ?_, ?_, ?_, balanced.kept, ?_, ?_, ?_, ?_⟩
  · rw [touches.window]
    by_cases same : other = streamId
    · exact same ▸ here (balanced.accounts streamId)
    · rw [touches.account same]
      exact balanced.accounts other
  · rw [flow]
    exact balanced.live
  · intro other held found
    rw [flow, touches.live]
    exact balanced.gone other held found
  · exact connection ▸ balanced.consumed
  · exact connection ▸ balanced.received
  · rw [connection, touches.params]
    exact balanced.opened
  · rw [connection, touches.params]
    exact balanced.limit

theorem Credits.refl (streamId : Nat) (c : Connection) : Credits streamId c c :=
  .keep (.refl streamId c) rfl rfl id

theorem total_overlay (weight : StreamFlowControl → Nat) (balanced : Balanced flows c)
    (live : c.isRetiredPeerBidirectional streamId = false)
    (zero : weight (.open_ (c.localStreamWindow streamId)) = 0) (flow : StreamFlowControl) :
    SortedMap.total weight (flows.insert streamId flow) + weight (c.streamFlowControl streamId) =
      SortedMap.total weight flows + weight flow := by
  unfold streamFlowControl
  cases found : c.receive.streamFlow.find? streamId with
  | none =>
    have fresh : flows.find? streamId = none := by
      cases held : flows.find? streamId with
      | none => rfl
      | some other =>
        rcases balanced.gone streamId other held with present | retired
        · exact absurd (found.symm.trans present) (by simp)
        · exact absurd (live.symm.trans retired) (by simp)
    rw [SortedMap.total_insert _ _ fresh, Option.getD_none, zero]
    rfl
  | some held => exact SortedMap.total_update weight flow (balanced.live streamId held found)

/-- The flow control of the stream is written, and the connection's counters move with it. -/
theorem Credits.write (touches : Touches streamId c d)
    (made : d.receive.streamFlow = c.receive.streamFlow.insert streamId flow)
    (here : (c.account streamId).Balanced (c.localStreamWindow streamId) →
      (d.account streamId).Balanced (c.localStreamWindow streamId))
    (consumed : d.connectionFlow.bytesConsumed + (c.streamFlowControl streamId).bytesConsumed =
      c.connectionFlow.bytesConsumed + flow.bytesConsumed)
    (received : d.connectionFlow.bytesReceived +
        (c.streamFlowControl streamId).highestReceivedOffset =
      c.connectionFlow.bytesReceived + flow.highestReceivedOffset)
    (opened : d.connectionFlow.initialWindow = c.connectionFlow.initialWindow)
    (limit : d.connectionFlow.maxDataLimit ≤ max c.connectionFlow.maxDataLimit
      (d.connectionFlow.bytesConsumed + d.connectionFlow.initialWindow))
    (forward : c.connectionFlow.bytesConsumed ≤ d.connectionFlow.bytesConsumed) :
    Credits streamId c d := by
  refine ⟨touches, fun {flows} live balanced => ?_⟩
  have own : d.streamFlowControl streamId = flow := by
    unfold streamFlowControl
    rw [made, SortedMap.find?_insert_self, Option.getD_some]
  have before := balanced.accounts streamId
  have after := here before
  rw [balanced.overlay_insert made]
  refine ⟨fun other => ?_, fun other held found => ?_, fun other held found => ?_,
    fun other held found => ?_, ?_, ?_, ?_, ?_⟩
  · rw [touches.window]
    by_cases same : other = streamId
    · exact same ▸ after
    · rw [touches.account same]
      exact balanced.accounts other
  · rw [made, SortedMap.find?_insert] at found
    rw [SortedMap.find?_insert]
    split
    · rename_i same
      rwa [if_pos same] at found
    · rename_i different
      rw [if_neg different] at found
      exact balanced.live other held found
  · rw [made, touches.live, SortedMap.find?_insert]
    rw [SortedMap.find?_insert] at found
    split
    · rename_i same
      rw [if_pos same] at found
      exact .inl found
    · rename_i different
      rw [if_neg different] at found
      exact balanced.gone other held found
  · rw [SortedMap.find?_insert] at found
    split at found
    · cases found
      exact own ▸ after.consumed
    · exact balanced.kept other held found
  · have sum := total_overlay StreamFlowControl.bytesConsumed balanced live rfl flow
    have total := balanced.consumed
    omega
  · have sum := total_overlay StreamFlowControl.highestReceivedOffset balanced live rfl flow
    have total := balanced.received
    omega
  · rw [opened, touches.params]
    exact balanced.opened
  · have below := balanced.limit
    have window := balanced.opened
    rw [touches.params]
    omega

end Connection
end SwStack.Quic
