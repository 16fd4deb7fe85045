import SwStack.Quic.Credit
import SwStack.Quic.ReceiveChanges

/-! The receive path keeps the books, as long as no read returns bytes that a reset has
discarded and no stream accepts what the connection refuses. -/
namespace SwStack.Quic.Connection

open SwStack.Lib

variable {c d : Connection} {streamId : Nat}

theorem setStreamFlow_touches
    (rises : (c.streamFlowControl streamId).maxDataLimit ≤ flow.maxDataLimit) :
    Touches streamId c (c.setStreamFlow streamId flow) := by
  refine ⟨rfl, rfl, rfl, ?_, le_rfl, fun held found => ⟨flow, SortedMap.find?_insert_self _ _ _, ?_⟩⟩
  · constructor <;> intro other different <;> simp [setStreamFlow, SortedMap.find?_insert, different]
  · unfold streamFlowControl at rises
    rw [found] at rises
    exact rises

@[simp] theorem setStreamFlow_streamFlowControl (c : Connection) (streamId : Nat)
    (flow : StreamFlowControl) : (c.setStreamFlow streamId flow).streamFlowControl streamId = flow := by
  unfold streamFlowControl setStreamFlow
  rw [SortedMap.find?_insert_self, Option.getD_some]

theorem setStreamFlow_account (c : Connection) (streamId : Nat) (flow : StreamFlowControl) :
    (c.setStreamFlow streamId flow).account streamId = { c.account streamId with flow } := by
  unfold account
  rw [setStreamFlow_streamFlowControl]
  rfl

theorem touchStreamFlow_account (c : Connection) (streamId : Nat) :
    (c.touchStreamFlow streamId).account streamId = c.account streamId :=
  setStreamFlow_account c streamId _

theorem touchStreamFlow_credits (c : Connection) (streamId : Nat) :
    Credits streamId c (c.touchStreamFlow streamId) :=
  .write (setStreamFlow_touches le_rfl) rfl (fun here => touchStreamFlow_account c streamId ▸ here)
    rfl rfl rfl (le_max_left _ _) le_rfl

/-- The connection's limit admits what the stream's limit does. -/
def Admits (c : Connection) (streamId stop : Nat) : Prop :=
  c.highestReceived streamId < stop →
    stop ≤ min (c.streamFlowControl streamId).maxDataLimit maxUInt64 →
    c.connectionFlow.bytesReceived + (stop - c.highestReceived streamId) ≤
      min c.connectionFlow.maxDataLimit maxUInt64

/-- The connection with `stop` bytes of a stream received. -/
def raise (c : Connection) (streamId stop : Nat) : Connection :=
  { c.setStreamFlow streamId { c.streamFlowControl streamId with
      highestReceivedOffset := max (c.highestReceived streamId) stop } with
    connectionFlow := { c.connectionFlow with
      bytesReceived := c.connectionFlow.bytesReceived + (stop - c.highestReceived streamId) } }

variable {length : Nat}

theorem accountConnection_ok (received : c.connectionFlow.onDataReceived length = .ok flow) :
    c.accountConnection length = ({ c with connectionFlow := flow }, none) := by
  rw [accountConnection, received]

variable {offset : Nat}

/-- Bytes that no reset has accounted are accounted in full or not at all. -/
theorem accountBytes_cases (admits : c.Admits streamId (offset + length)) :
    (∃ message, c.accountBytes streamId offset length = (c.touchStreamFlow streamId, some message)) ∨
      c.accountBytes streamId offset length = (c.raise streamId (offset + length), none) := by
  unfold Admits at admits
  unfold accountBytes accountStream StreamFlowControl.onDataReceived
  by_cases overflows : maxUInt64 < offset + length
  · rw [if_pos overflows]
    exact .inl ⟨_, rfl⟩
  · rw [if_neg overflows]
    by_cases beyond : (c.streamFlowControl streamId).maxDataLimit < offset + length
    · rw [if_pos beyond]
      exact .inl ⟨_, rfl⟩
    · rw [if_neg beyond]
      refine .inr ?_
      simp only [andThen, highestReceived, setStreamFlow_streamFlowControl] at admits ⊢
      split
      · rename_i higher
        have admitted := admits (by omega) (by omega)
        have amount : max (c.streamFlowControl streamId).highestReceivedOffset (offset + length) -
            (c.streamFlowControl streamId).highestReceivedOffset = offset + length -
            (c.streamFlowControl streamId).highestReceivedOffset := by omega
        have received : c.connectionFlow.onDataReceived
            (offset + length - (c.streamFlowControl streamId).highestReceivedOffset) =
            .ok { c.connectionFlow with
              bytesReceived := c.connectionFlow.bytesReceived +
                (offset + length - (c.streamFlowControl streamId).highestReceivedOffset) } := by
          rw [ConnectionFlowControl.onDataReceived, if_neg (by omega), if_neg (by omega)]
        rw [amount]
        exact accountConnection_ok received
      · unfold raise highestReceived
        have nothing : offset + length - (c.streamFlowControl streamId).highestReceivedOffset = 0 := by
          omega
        rw [nothing]
        rfl

theorem raise_account (c : Connection) (streamId stop : Nat) :
    (c.raise streamId stop).account streamId = { c.account streamId with
      flow := { c.streamFlowControl streamId with
        highestReceivedOffset := max (c.highestReceived streamId) stop } } :=
  setStreamFlow_account c streamId _

theorem raise_highestReceived (c : Connection) (streamId stop : Nat) :
    (c.raise streamId stop).highestReceived streamId = max (c.highestReceived streamId) stop := by
  have flow := setStreamFlow_streamFlowControl c streamId { c.streamFlowControl streamId with
    highestReceivedOffset := max (c.highestReceived streamId) stop }
  exact congrArg StreamFlowControl.highestReceivedOffset flow

theorem raise_credits (fits : ∀ finalSize,
      c.receive.streamFinalSize.find? streamId = some finalSize → stop ≤ finalSize) :
    Credits streamId c (c.raise streamId stop) := by
  have touches : Touches streamId c (c.raise streamId stop) := by
    have written : Touches streamId c (c.setStreamFlow streamId { c.streamFlowControl streamId with
        highestReceivedOffset := max (c.highestReceived streamId) stop }) :=
      setStreamFlow_touches le_rfl
    exact ⟨written.role, written.params, written.ranges, written.others, written.raises,
      written.flow⟩
  refine .write touches rfl (fun here => ?_) rfl ?_ rfl (le_max_left _ _) le_rfl
  · rw [raise_account]
    exact here.raise fits
  · change _ + (stop - c.highestReceived streamId) + c.highestReceived streamId =
      _ + max (c.highestReceived streamId) stop
    omega

theorem accountBytes_credits (admits : c.Admits streamId (offset + length))
    (fits : ∀ finalSize, c.receive.streamFinalSize.find? streamId = some finalSize →
      offset + length ≤ finalSize) : Credits streamId c (c.accountBytes streamId offset length).1 := by
  rcases accountBytes_cases admits with ⟨message, refused⟩ | accepted
  · rw [refused]
    exact touchStreamFlow_credits c streamId
  · rw [accepted]
    exact raise_credits fits

theorem advertiseStream_spec (c : Connection) (streamId : Nat) (flow : StreamFlowControl) :
    ∃ told, (told = flow ∨ flow.shouldSendMaxStreamData = true ∧ told = flow.applyMaxStreamData) ∧
      (c.advertiseStream streamId flow).receive = { c.receive with
        streamFlow := c.receive.streamFlow.insert streamId told } ∧
      (c.advertiseStream streamId flow).setup = c.setup ∧
      (c.advertiseStream streamId flow).retiredPeerBidiRanges = c.retiredPeerBidiRanges ∧
      (c.advertiseStream streamId flow).connectionFlow = c.connectionFlow := by
  unfold advertiseStream
  split
  · rename_i due
    exact ⟨_, .inr ⟨due, rfl⟩, rfl, rfl, rfl, rfl⟩
  · exact ⟨flow, .inl rfl, rfl, rfl, rfl, rfl⟩

theorem advertiseConnection_spec (c : Connection) (flow : ConnectionFlowControl) :
    ((c.advertiseConnection flow).connectionFlow = flow ∨ flow.shouldSendMaxData = true ∧
      (c.advertiseConnection flow).connectionFlow = flow.applyMaxData) ∧
      (c.advertiseConnection flow).receive = c.receive ∧
      (c.advertiseConnection flow).setup = c.setup ∧
      (c.advertiseConnection flow).retiredPeerBidiRanges = c.retiredPeerBidiRanges := by
  unfold advertiseConnection
  split
  · rename_i due
    exact ⟨.inr ⟨due, rfl⟩, rfl, rfl, rfl⟩
  · exact ⟨.inl rfl, rfl, rfl, rfl⟩

theorem creditFlowControl_spec (c : Connection) (streamId bytes : Nat) :
    ∃ flow, StreamFlowControl.Credited bytes (c.streamFlowControl streamId) flow ∧
      (c.creditFlowControl streamId bytes).receive = { c.receive with
        streamFlow := c.receive.streamFlow.insert streamId flow } ∧
      ConnectionFlowControl.Credited bytes c.connectionFlow
        (c.creditFlowControl streamId bytes).connectionFlow ∧
      (c.creditFlowControl streamId bytes).setup = c.setup ∧
      (c.creditFlowControl streamId bytes).retiredPeerBidiRanges = c.retiredPeerBidiRanges := by
  obtain ⟨told, advertised, receive, setup, ranges, -⟩ :=
    advertiseStream_spec c streamId ((c.streamFlowControl streamId).consume bytes)
  obtain ⟨connection, same, setup', ranges'⟩ := advertiseConnection_spec
    (c.advertiseStream streamId ((c.streamFlowControl streamId).consume bytes))
    (c.connectionFlow.consume bytes)
  refine ⟨told, ?_, same.trans receive, ?_, setup'.trans setup, ranges'.trans ranges⟩
  · rcases advertised with rfl | ⟨due, rfl⟩
    · exact ⟨rfl, rfl, rfl, le_rfl, le_max_left _ _⟩
    · refine ⟨rfl, rfl, rfl, ?_, le_max_right _ _⟩
      have due := of_decide_eq_true due
      dsimp only [StreamFlowControl.consume] at due
      change _ ≤ (c.streamFlowControl streamId).bytesConsumed + bytes +
        (c.streamFlowControl streamId).initialWindow
      omega
  · change ConnectionFlowControl.Credited bytes c.connectionFlow (advertiseConnection _ _).connectionFlow
    rcases connection with told | ⟨due, told⟩
    · rw [told]
      exact ⟨rfl, rfl, rfl, le_rfl, le_max_left _ _⟩
    · rw [told]
      refine ⟨rfl, rfl, rfl, ?_, le_max_right _ _⟩
      have due := of_decide_eq_true due
      dsimp only [ConnectionFlowControl.consume] at due
      change _ ≤ c.connectionFlow.bytesConsumed + bytes + c.connectionFlow.initialWindow
      omega

/-- The frames that a credit queues carry the limits that hold after it. -/
theorem creditFlowControl_frames (c : Connection) (streamId bytes : Nat) :
    ∃ told, (c.creditFlowControl streamId bytes).app.pendingFrames =
        c.app.pendingFrames ++ told ∧
      told ⊆ [.maxStreamData streamId
          ((c.creditFlowControl streamId bytes).streamFlowControl streamId).maxDataLimit,
        .maxData (c.creditFlowControl streamId bytes).connectionFlow.maxDataLimit] := by
  unfold creditFlowControl advertiseConnection advertiseStream
  split <;> split
  all_goals simp [enqueue, setSpace, app, setStreamFlow, streamFlowControl,
    ConnectionFlowControl.applyMaxData, StreamFlowControl.applyMaxStreamData]

theorem grantPeerStream_frames (c : Connection) : c.grantPeerStream = c ∨
    c.grantPeerStream.app.pendingFrames = c.app.pendingFrames ++
      [.maxStreams true c.grantPeerStream.streamLimits.localMaxStreamsBidi] := by
  unfold grantPeerStream
  split
  · exact .inr (by simp [enqueue, setSpace, app])
  · exact .inl rfl

/-- Credit after a change of the stream's other tables. -/
theorem creditFlowControl_credits (touches : Touches streamId c d)
    (same : d.receive.streamFlow = c.receive.streamFlow)
    (connection : d.connectionFlow = c.connectionFlow)
    (here : ∀ flow, StreamFlowControl.Credited bytes (c.streamFlowControl streamId) flow →
      (c.account streamId).Balanced (c.localStreamWindow streamId) →
      Account.Balanced (c.localStreamWindow streamId) { d.account streamId with flow }) :
    Credits streamId c (d.creditFlowControl streamId bytes) := by
  obtain ⟨flow, credited, receive, counted, setup, ranges⟩ := creditFlowControl_spec d streamId bytes
  have own : d.streamFlowControl streamId = c.streamFlowControl streamId := by
    unfold streamFlowControl
    rw [same, touches.window]
  rw [own] at credited
  rw [connection] at counted
  have written : (d.creditFlowControl streamId bytes).receive.streamFlow =
      c.receive.streamFlow.insert streamId flow := by rw [receive, same]
  have touched : Touches streamId c (d.creditFlowControl streamId bytes) := by
    refine ⟨setup ▸ touches.role, setup ▸ touches.params, ranges ▸ touches.ranges, ?_,
      counted.rises, fun held found => ⟨flow, ?_, ?_⟩⟩
    · rw [receive]
      refine touches.others.trans ?_
      constructor <;> intro other different <;> simp [SortedMap.find?_insert, different]
    · rw [written, SortedMap.find?_insert_self]
    · have rises := credited.rises
      unfold streamFlowControl at rises
      rw [found] at rises
      exact rises
  have after : (d.creditFlowControl streamId bytes).account streamId =
      { d.account streamId with flow } := by
    unfold account streamFlowControl
    rw [receive]
    dsimp only
    rw [SortedMap.find?_insert_self, Option.getD_some]
  refine .write touched written (fun before => after ▸ here flow credited before) ?_ ?_
    counted.window ?_ ?_
  · have stream := credited.consumed
    have total := counted.consumed
    omega
  · rw [counted.received, credited.highest]
  · exact counted.limit
  · have total := counted.consumed
    omega

variable {finalSize : Nat}

/-- A reset in force discards the rest of a stream received up to its final size. -/
theorem creditDiscarded_credits (touches : Touches streamId c d)
    (same : d.receive.streamFlow = c.receive.streamFlow)
    (connection : d.connectionFlow = c.connectionFlow)
    (reset : (d.account streamId).reset = true)
    (whole : (c.account streamId).Balanced (c.localStreamWindow streamId) →
      c.highestReceived streamId = finalSize ∧
        (d.account streamId).finalSize = some finalSize ∧
        (d.account streamId).Balanced (c.localStreamWindow streamId)) :
    Credits streamId c (d.creditDiscarded streamId finalSize) := by
  have own : d.streamFlowControl streamId = c.streamFlowControl streamId := by
    unfold streamFlowControl
    rw [same, touches.window]
  unfold creditDiscarded
  split
  · refine creditFlowControl_credits touches same connection fun flow credited before => ?_
    obtain ⟨highest, final, kept⟩ := whole before
    have above : (d.account streamId).flow.highestReceivedOffset = finalSize := by
      change (d.streamFlowControl streamId).highestReceivedOffset = finalSize
      rw [own]
      exact highest
    refine kept.discard reset final above ?_
    change StreamFlowControl.Credited (_ - (d.streamFlowControl streamId).bytesConsumed)
      (d.streamFlowControl streamId) flow
    rw [own] at credited ⊢
    exact credited
  · exact .keep touches same connection fun before => (whole before).2.2

theorem enforceStreamLimit_credits
    (admitted : (c.enforceStreamLimit streamId).2 = none → Credits streamId c (next c).1) :
    Credits streamId c (andThen (c.enforceStreamLimit streamId) next).1 := by
  rcases enforceStreamLimit_cases c streamId with
    accepted | ⟨d, message, refused, setup, receive, connection, ranges⟩
  · rw [accepted] at admitted ⊢
    exact admitted rfl
  · rw [refused]
    refine .keep ⟨congrArg Setup.role setup, congrArg Setup.localParams setup, ranges,
      receive ▸ .refl _ _, connection ▸ le_rfl, fun flow found => ⟨flow, ?_, le_rfl⟩⟩
      (congrArg Tables.streamFlow receive) connection fun before => ?_
    · exact (congrArg (fun tables : Tables => tables.streamFlow.find? streamId) receive).trans found
    · have same : d.account streamId = c.account streamId := by
        unfold account streamFlowControl localStreamWindow locallyInitiated
        rw [receive, setup]
      exact same ▸ before

theorem Credits.andThen (first : Credits streamId c result.1)
    (second : result.2 = none → Credits streamId result.1 (next result.1).1) :
    Credits streamId c (andThen result next).1 := by
  obtain ⟨d, _ | message⟩ := result
  · exact first.trans (second rfl)
  · exact first

theorem touchStreamFlow_highestReceived (c : Connection) (streamId : Nat) :
    (c.touchStreamFlow streamId).highestReceived streamId = c.highestReceived streamId := by
  unfold highestReceived touchStreamFlow
  rw [setStreamFlow_streamFlowControl]

theorem touchStreamFlow_admits (admits : c.Admits streamId stop) :
    (c.touchStreamFlow streamId).Admits streamId stop := by
  unfold Admits highestReceived touchStreamFlow
  rw [setStreamFlow_streamFlowControl]
  exact admits

theorem finalSizeConflicts_touch (c : Connection) (streamId finalSize : Nat) :
    (c.touchStreamFlow streamId).finalSizeConflicts streamId finalSize =
      c.finalSizeConflicts streamId finalSize := by
  unfold finalSizeConflicts highestReceived touchStreamFlow
  rw [setStreamFlow_streamFlowControl]
  rfl

theorem of_finalSizeConflicts (agrees : c.finalSizeConflicts streamId finalSize = false) :
    c.highestReceived streamId ≤ finalSize ∧
      ∀ established, c.receive.streamFinalSize.find? streamId = some established →
        established = finalSize := by
  unfold finalSizeConflicts at agrees
  rw [Bool.or_eq_false_iff] at agrees
  refine ⟨Nat.le_of_not_lt (of_decide_eq_false agrees.1), fun established found => ?_⟩
  have same := agrees.2
  rw [found] at same
  simpa using same

/-- The bytes up to a final size are accounted, and then all of them are received. -/
theorem accountFinalSize_cases (within : c.highestReceived streamId ≤ finalSize)
    (admits : c.Admits streamId finalSize)
    (agrees : ∀ established, c.receive.streamFinalSize.find? streamId = some established →
      established = finalSize) :
    Credits streamId c (c.accountFinalSize streamId finalSize).1 ∧
      ((c.accountFinalSize streamId finalSize).2 = none →
        (c.accountFinalSize streamId finalSize).1.highestReceived streamId = finalSize ∧
        { (c.accountFinalSize streamId finalSize).1.receive with
          streamFlow := c.receive.streamFlow } = c.receive) := by
  unfold accountFinalSize
  split
  · rename_i more
    have stop : c.highestReceived streamId + (finalSize - c.highestReceived streamId) = finalSize :=
      Nat.add_sub_cancel' within
    refine ⟨accountBytes_credits (stop.symm ▸ admits) fun established found =>
      (stop.trans (agrees established found).symm).le, fun accepted => ?_⟩
    rcases accountBytes_cases (stop.symm ▸ admits) with ⟨message, refused⟩ | raised
    · rw [refused] at accepted
      contradiction
    · rw [raised, stop]
      exact ⟨(raise_highestReceived c streamId finalSize).trans (max_eq_right within), rfl⟩
  · rename_i whole
    exact ⟨.refl streamId c, fun _ => ⟨le_antisymm within (Nat.le_of_not_lt whole), rfl⟩⟩

variable {errorCode : Nat}

theorem recordReset_credits
    (agrees : ∀ established, c.receive.streamFinalSize.find? streamId = some established →
      established = finalSize) :
    Credits streamId c (c.recordReset streamId errorCode finalSize) := by
  refine .keep (.tables ?_ rfl) rfl rfl fun before => ?_
  · constructor <;> intro other different <;> simp [SortedMap.find?_insert, different]
  · have after : (c.recordReset streamId errorCode finalSize).account streamId =
        { c.account streamId with reset := true, finalSize := some finalSize } := by
      unfold account recordReset
      simp only [SortedMap.contains, SortedMap.find?_insert_self]
      rfl
    rw [after]
    exact before.finish agrees (fun _ => rfl) fun waiting found => .inl found

theorem receiveReset_credits (admits : (c.enforceStreamLimit streamId).2 = none →
      c.finalSizeConflicts streamId finalSize = false → c.Admits streamId finalSize) :
    Credits streamId c (c.receiveReset streamId errorCode finalSize).1 := by
  refine enforceStreamLimit_credits fun accepted => ?_
  rw [finalSizeConflicts_touch]
  split
  · exact touchStreamFlow_credits c streamId
  · rename_i conflicts
    have agreed : c.finalSizeConflicts streamId finalSize = false := by simpa using conflicts
    obtain ⟨within, agrees⟩ := of_finalSizeConflicts agreed
    have recorded : Credits streamId c
        ((c.touchStreamFlow streamId).recordReset streamId errorCode finalSize) :=
      (touchStreamFlow_credits c streamId).trans (recordReset_credits agrees)
    have final : ((c.touchStreamFlow streamId).recordReset streamId errorCode
        finalSize).receive.streamFinalSize.find? streamId = some finalSize :=
      SortedMap.find?_insert_self _ _ _
    have reset : ((c.touchStreamFlow streamId).recordReset streamId errorCode
        finalSize).receive.resetStreams.contains streamId = true := by
      unfold SortedMap.contains recordReset
      rw [SortedMap.find?_insert_self]
      rfl
    have admitted : ((c.touchStreamFlow streamId).recordReset streamId errorCode
        finalSize).Admits streamId finalSize :=
      touchStreamFlow_admits (admits accepted agreed)
    rw [← touchStreamFlow_highestReceived] at within
    obtain ⟨accounted, done⟩ := accountFinalSize_cases (c :=
      (c.touchStreamFlow streamId).recordReset streamId errorCode finalSize) within admitted
      fun established found => Option.some.inj (found.symm.trans final)
    refine recorded.trans (accounted.andThen fun accepted => ?_)
    obtain ⟨whole, tables⟩ := done accepted
    refine creditDiscarded_credits (.refl streamId _) rfl rfl ?_ fun before => ⟨whole, ?_, before⟩
    · exact (congrArg (fun tables : Tables => tables.resetStreams.contains streamId) tables).trans
        reset
    · exact (congrArg (fun tables : Tables => tables.streamFinalSize.find? streamId) tables).trans
        final

theorem scheduleReset_credits (whole : c.highestReceived streamId = finalSize)
    (agrees : ∀ established, c.receive.streamFinalSize.find? streamId = some established →
      established = finalSize) :
    Credits streamId c (c.scheduleReset streamId errorCode finalSize reliableSize) := by
  unfold scheduleReset
  split
  · refine creditDiscarded_credits (c := c) (.tables ?_ rfl) rfl rfl ?_ fun before =>
      ⟨whole, ?_, ?_⟩
    · constructor <;> intro other different <;>
        simp [SortedMap.find?_insert, SortedMap.find?_erase, different]
    · simp [account, SortedMap.contains]
    · simp [account]
    · unfold account
      simp only [SortedMap.contains, SortedMap.find?_insert_self, SortedMap.find?_erase, if_pos]
      exact before.finish agrees (fun _ => rfl) (by simp)
  · refine .keep (.tables ?_ rfl) rfl rfl fun before => ?_
    · constructor <;> intro other different <;> simp [SortedMap.find?_insert, different]
    · unfold account
      simp only [SortedMap.find?_insert_self]
      refine before.finish agrees id fun waiting found => ?_
      cases found
      exact .inr ⟨rfl, whole⟩

theorem receiveResetAt_credits (admits : (c.enforceStreamLimit streamId).2 = none →
      c.finalSizeConflicts streamId finalSize = false → c.Admits streamId finalSize) :
    Credits streamId c (c.receiveResetAt streamId errorCode finalSize reliableSize).1 := by
  refine enforceStreamLimit_credits fun accepted => ?_
  rw [finalSizeConflicts_touch]
  split
  · exact touchStreamFlow_credits c streamId
  · rename_i conflicts
    have agreed : c.finalSizeConflicts streamId finalSize = false := by simpa using conflicts
    obtain ⟨within, agrees⟩ := of_finalSizeConflicts agreed
    rw [← touchStreamFlow_highestReceived] at within
    obtain ⟨accounted, done⟩ := accountFinalSize_cases within
      (touchStreamFlow_admits (admits accepted agreed)) agrees
    refine (touchStreamFlow_credits c streamId).trans (accounted.andThen fun accepted => ?_)
    obtain ⟨whole, tables⟩ := done accepted
    refine scheduleReset_credits whole fun established found => agrees established ?_
    exact (congrArg (fun tables : Tables => tables.streamFinalSize.find? streamId) tables).symm.trans
      found

theorem applyReliableReset_credits (c : Connection) (streamId : Nat) :
    Credits streamId c (c.applyReliableReset streamId) := by
  unfold applyReliableReset
  split
  · rename_i pending stream waiting held
    split
    · refine (touchStreamFlow_credits c streamId).trans
        (creditDiscarded_credits (c := c.touchStreamFlow streamId) ?_ rfl rfl ?_ fun before => ?_)
      · refine .tables ?_ rfl
        constructor <;> intro other different <;>
          simp [touchStreamFlow, setStreamFlow, SortedMap.find?_insert, SortedMap.find?_erase,
            different]
      · simp [account, SortedMap.contains, touchStreamFlow, setStreamFlow]
      · obtain ⟨final, whole⟩ := before.pending pending waiting
        refine ⟨whole, final, ?_⟩
        have after : Account.Balanced _ { (c.touchStreamFlow streamId).account streamId with
            reset := true, pending := none, finalSize := some pending.finalSize } :=
          before.finish (fun established found => Option.some.inj (found.symm.trans final))
            (fun _ => rfl) (by simp)
        rw [← final] at after
        unfold account touchStreamFlow setStreamFlow at after ⊢
        simp only [SortedMap.contains, SortedMap.find?_insert_self, SortedMap.find?_erase,
          if_pos] at after ⊢
        exact after
    · exact .refl streamId c
  · exact .refl streamId c

theorem reassemble_credits
    (received : (c.account streamId).Balanced (c.localStreamWindow streamId) →
      offset + data.length ≤ c.highestReceived streamId) :
    Credits streamId c (c.reassemble streamId offset data fin).1 := by
  have hold (stream : Stream) (kept : (c.account streamId).Balanced (c.localStreamWindow streamId) →
      stream.readOffset = (c.account streamId).readOffset ∧
        stream.Retains (EndsWithin (c.highestReceived streamId))) :
      Credits streamId c
        { c with receive.streams := c.receive.streams.insert streamId stream } := by
    refine .keep (.tables ?_ rfl) rfl rfl fun before => ?_
    · constructor <;> intro other different <;> simp [SortedMap.find?_insert, different]
    · obtain ⟨same, retains⟩ := kept before
      unfold account
      simp only [SortedMap.find?_insert_self]
      refine before.hold same ?_ retains
      rw [same]
      exact before.read_le
  have opened (before : (c.account streamId).Balanced (c.localStreamWindow streamId)) :
      (c.reassemblyStream streamId).readOffset = (c.account streamId).readOffset ∧
        (c.reassemblyStream streamId).Retains (EndsWithin (c.highestReceived streamId)) := by
    unfold reassemblyStream Account.readOffset account
    cases found : c.receive.streams.find? streamId with
    | none => exact ⟨rfl, fun _ member => absurd member List.not_mem_nil⟩
    | some stream => exact ⟨rfl, (before.held stream found).2⟩
  unfold reassemble
  split
  · exact hold _ opened
  · rename_i stream accepted
    refine hold stream fun before => ?_
    obtain ⟨same, retains⟩ := opened before
    obtain ⟨kept, moved, -, -⟩ :=
      Stream.receive_spec (EndsWithin.divides _) retains (received before) accepted
    exact ⟨moved.trans same, kept⟩

theorem establishFinalSize_credits (agrees : c.violatesFinalSize streamId stop fin = false) :
    Credits streamId c (c.establishFinalSize streamId stop fin) ∧
      ∀ established, (c.establishFinalSize streamId stop fin).receive.streamFinalSize.find?
        streamId = some established → stop ≤ established := by
  unfold violatesFinalSize at agrees
  unfold establishFinalSize
  split
  · rename_i last
    constructor
    · refine .keep (.tables ?_ rfl) rfl rfl fun before => ?_
      · constructor <;> intro other different <;> simp [SortedMap.find?_insert, different]
      · unfold account
        simp only [SortedMap.find?_insert_self]
        refine before.finish (fun established found => ?_) id fun waiting found => .inl found
        change c.receive.streamFinalSize.find? streamId = some established at found
        rw [found] at agrees
        simp [last] at agrees
        exact agrees.2.symm
    · intro established found
      rw [SortedMap.find?_insert_self] at found
      cases found
      exact le_rfl
  · refine ⟨.refl streamId c, fun established found => ?_⟩
    rw [found, Bool.or_eq_false_iff] at agrees
    exact Nat.le_of_not_lt (of_decide_eq_false agrees.1)

theorem processStreamFrame_credits (admits : (c.enforceStreamLimit streamId).2 = none →
      c.violatesFinalSize streamId (offset + data.length) fin = false →
      c.Admits streamId (offset + data.length)) :
    Credits streamId c (andThen (c.enforceStreamLimit streamId) fun c =>
      if c.violatesFinalSize streamId (offset + data.length) fin then
        (c, some "STREAM data conflicts with established final size (FINAL_SIZE_ERROR)")
      else
        andThen ((c.establishFinalSize streamId (offset + data.length) fin)
          |>.accountBytes streamId offset data.length) fun c =>
            c.reassemble streamId offset data fin).1 := by
  refine enforceStreamLimit_credits fun accepted => ?_
  split
  · exact .refl streamId c
  · rename_i agrees
    have agreed : c.violatesFinalSize streamId (offset + data.length) fin = false := by
      simpa using agrees
    obtain ⟨established, fits⟩ := establishFinalSize_credits agreed
    have admitted : (c.establishFinalSize streamId (offset + data.length) fin).Admits streamId
        (offset + data.length) := by
      unfold establishFinalSize
      split <;> exact admits accepted agreed
    refine established.trans ((accountBytes_credits admitted fits).andThen fun accounted => ?_)
    refine reassemble_credits fun _ => ?_
    rcases accountBytes_cases admitted with ⟨message, refused⟩ | raised
    · rw [refused] at accounted
      contradiction
    · rw [raised, raise_highestReceived]
      exact le_max_right _ _

/-- A stream is not read where a reset has credited its bytes already. -/
def ReadsOnce (c : Connection) (streamId : Nat) : Prop :=
  ∀ stream, c.receive.streams.find? streamId = some stream → stream.Readable →
    (c.streamFlowControl streamId).bytesConsumed ≤ stream.readOffset

theorem consumeStream_credits (once : c.ReadsOnce streamId) :
    Credits streamId c (c.consumeStream streamId).1 := by
  refine Credits.trans ?_ (applyReliableReset_credits _ streamId)
  unfold readContiguous
  cases found : c.receive.streams.find? streamId with
  | none => exact .refl streamId c
  | some stream =>
    have touches : Touches streamId c { c with
        receive.streams := c.receive.streams.insert streamId stream.readContiguous.1 } := by
      refine .tables ?_ rfl
      constructor <;> intro other different <;> simp [SortedMap.find?_insert, different]
    have offset : (c.account streamId).readOffset = stream.readOffset := by
      unfold account Account.readOffset
      rw [found]
    unfold creditRead
    dsimp only
    split
    · rename_i nothing
      refine .keep touches rfl rfl fun before => ?_
      obtain ⟨within, retains⟩ := before.held stream found
      obtain ⟨kept, -, -, moved, -⟩ := Stream.readContiguous_spec (EndsWithin.divides _) retains
      rw [nothing, Nat.add_zero] at moved
      unfold account
      simp only [SortedMap.find?_insert_self]
      exact before.hold (moved.trans offset.symm) (moved ▸ within) kept
    · rename_i returned
      refine creditFlowControl_credits touches rfl rfl fun flow credited before => ?_
      obtain ⟨within, retains⟩ := before.held stream found
      obtain ⟨kept, -, -, moved, tiles⟩ := Stream.readContiguous_spec (EndsWithin.divides _) retains
      have readable : stream.Readable := by
        by_contra unreadable
        rw [Stream.readContiguous_unreadable unreadable] at returned
        exact returned rfl
      have undiscarded := once stream found readable
      have stop := tiles.within within
      unfold account
      simp only [SortedMap.find?_insert_self]
      exact before.read (offset ▸ undiscarded) (offset ▸ stop) (offset ▸ moved) kept credited

end SwStack.Quic.Connection
