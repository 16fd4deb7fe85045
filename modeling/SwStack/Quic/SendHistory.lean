import SwStack.Quic.SendSteps

/-! Runs of a connection with the stream bytes it has staged and the largest limits its peer has
announced. -/
namespace SwStack.Quic

open SwStack.Lib SendView

namespace Connection

variable {c : Connection} {log : Log} {acked : List Frame}

theorem Accurate.drained (accurate : Accurate log acked c) : c.Drained := by
  intro streamId stream found meets
  have matches_ := accurate.sender.streams streamId stream found
  simp only [Connection.retires, Bool.and_eq_true, Bool.or_eq_true] at meets
  rcases meets.2 with reset | graceful
  · simp only [SendStream.resetTerminal, Bool.and_eq_true] at reset
    unfold SendStream.remaining
    rw [matches_.abandoned reset.1]
    exact Nat.zero_sub _
  · simp only [SendStream.gracefulTerminal, Bool.and_eq_true, Bool.not_eq_true'] at graceful
    obtain ⟨⟨⟨fresh, -⟩, finAcked⟩, -⟩ := graceful
    have sent := accurate.written_le found fresh finAcked
    have unsent := matches_.remaining fresh
    omega

/-- The stream bytes a connection holds on to: those not staged, those in frames not sent, and
those that may have to be sent again. -/
def retainedStreamBytes (c : Connection) : Nat :=
  c.sendStreams.total SendStream.remaining + streamDataSize c.app.pendingFrames +
    (c.app.sentPackets.values.map fun record => streamDataSize record.retransmittable).sum

theorem queuedStreamSendBytes_append (c : Connection) (streamId : Nat) (stream : SendStream)
    (bytes : Nat) :
    ({ c.setSendStream streamId stream with
      sending.bufferedStreamSendBytes :=
        c.sending.bufferedStreamSendBytes + bytes } : Connection).queuedStreamSendBytes =
      c.queuedStreamSendBytes + bytes := by
  unfold queuedStreamSendBytes
  change c.sending.bufferedStreamSendBytes + bytes + streamDataSize c.app.pendingFrames +
    (c.app.sentPackets.values.map fun record => streamDataSize record.retransmittable).sum = _
  omega

end Connection

structure SendHistory where
  connection : Connection
  staged : Nat
  announced : AnnouncedLimits

namespace SendHistory

open Connection

def start (setup : Setup) : SendHistory :=
  { connection := .start setup, staged := 0
    announced :=
      { maxData := (Connection.start setup).connectionFlow.peerMaxData
        maxStreamData := (Connection.start setup).peerStreamSendLimit } }

def after (h : SendHistory) (input : Input) : SendHistory :=
  { connection := h.connection.perform input
    staged := h.staged +
      SendView.staged h.connection.sendView (h.connection.perform input).sendView
    announced :=
      { maxData := max h.announced.maxData (announcedData input)
        maxStreamData := fun streamId =>
          max (h.announced.maxStreamData streamId) (announcedStreamData input streamId) } }

def step (h : SendHistory) (input : Input) : Option SendHistory := some (h.after input)

abbrev Run (allowed : Input → Prop) (setup : Setup) : SendHistory → Prop :=
  Reaches step (fun _ => allowed) (start setup)

/-- Data that is accepted fits in the buffers. -/
def FitsBuffers (h : SendHistory) : Prop :=
  ∀ streamId data fin accepted,
    h.connection.sendStreamData streamId data fin = (accepted, none) →
    0 < h.connection.setup.limits.maxBufferedStreamSendBytes →
    accepted.retainedStreamBytes ≤ h.connection.setup.limits.maxBufferedStreamSendBytes

/-- What holds of every history with peer parameters. -/
structure Budgeted (drains : Prop) (h : SendHistory) : Prop where
  peer : h.connection.setup.peerParams.isSome = true
  within : Within h.announced drains h.connection.sendView
  staged : h.staged = h.connection.sending.totalStreamBytesSent
  accurate : drains → ∃ log acked, Accurate log acked h.connection

variable {h : SendHistory} {setup : Setup} {drains : Prop}

theorem Budgeted.start (peer : setup.peerParams.isSome = true) : (start setup).Budgeted drains where
  peer := peer
  within :=
    { compacted := fun _ => le_rfl, covered := le_rfl, counted := fun _ => rfl
      offsets := fun _ => Nat.zero_le _, credit := Nat.zero_le _, maxData := le_rfl
      maxStreamData := fun streamId => le_of_eq (streamLimit_sendView _ streamId) }
  staged := rfl
  accurate := fun _ => ⟨_, _, .start setup⟩

theorem Budgeted.after (budgeted : h.Budgeted drains)
    (quiet : drains → DriverQuiet input) : (h.after input).Budgeted drains := by
  have within : Within (h.after input).announced drains h.connection.sendView :=
    budgeted.within.announce (le_max_left _ _) fun _ => le_max_left _ _
  have accurate (drained : drains) :
      ∃ log acked, Accurate log acked (h.connection.perform input) := by
    obtain ⟨log, acked, accurate⟩ := budgeted.accurate drained
    exact ⟨_, _, accurate.perform (quiet drained)⟩
  cases building : buildsDatagrams input with
  | true =>
    have stages : Stages h.connection.sendView (h.connection.perform input).sendView := by
      cases input with
      | buildDatagrams clock seals => exact stages_buildDatagrams budgeted.peer clock seals
      | _ => cases building
    have still : (h.connection.perform input).setup = h.connection.setup := Stages.setup stages
    have counted : _ = h.connection.sending.totalStreamBytesSent + _ := Stages.staged stages
    exact ⟨still ▸ budgeted.peer, within.stages stages,
      (congrArg (· + _) budgeted.staged).trans counted.symm, accurate⟩
  | false =>
    have drained (drains : drains) (settled : Connection)
        (tried : h.connection.settled input = some settled) : settled.Drained := by
      obtain ⟨log, acked, accurate⟩ := budgeted.accurate drains
      exact (accurate.settling tried).drained
    have edits : Edits (h.after input).announced drains h.connection.sendView
        (h.connection.perform input).sendView :=
      edits_perform budgeted.within.compacted drained (le_max_right _ _)
        (fun _ => le_max_right _ _) building
    have still : (h.connection.perform input).setup = h.connection.setup := Edits.setup edits
    obtain ⟨same, nothing⟩ := Edits.staged edits
    refine ⟨still ▸ budgeted.peer, within.edits edits, ?_, accurate⟩
    change h.staged + SendView.staged _ _ = _
    rw [nothing]
    exact budgeted.staged.trans same.symm

theorem Budgeted.fits (budgeted : h.Budgeted drains) : h.FitsBuffers := by
  intro streamId data fin accepted made limited
  have after : Within h.announced drains accepted.sendView := by
    have edits : Edits h.announced drains h.connection.sendView
        (h.connection.sendStreamData streamId data fin).1.sendView :=
      edits_sendStreamData budgeted.within.compacted streamId data fin
    rw [made] at edits
    exact budgeted.within.edits edits
  have covered : accepted.sendStreams.total SendStream.remaining ≤
      accepted.sending.bufferedStreamSendBytes := after.covered
  have queued : accepted.queuedStreamSendBytes ≤
      h.connection.setup.limits.maxBufferedStreamSendBytes := by
    have validated := (Leaves.validateSendStreamState h.connection streamId).sameSending
    unfold Connection.sendStreamData at made
    split at made
    · cases made
    rcases checked : h.connection.validateSendStreamState streamId with ⟨c, _ | message⟩
    · rw [checked] at made validated
      dsimp only at made validated
      have still : c.setup = h.connection.setup := congrArg SendView.setup validated
      split at made
      · cases made
      · rename_i fits
        rw [still] at fits
        split at made
        · cases made
        · cases made
          rw [queuedStreamSendBytes_append]
          exact not_lt.mp fun more => fits ⟨limited, more⟩
    · rw [checked] at made
      cases made
  unfold Connection.retainedStreamBytes
  unfold Connection.queuedStreamSendBytes at queued
  omega

/-- A peer with credit for two bytes on each stream it opens. -/
def shortCredit : Setup :=
  { Setup.default .server with
    peerParams := some { TransportParameters.default with initialMaxStreamDataBidiLocal := 2 } }

def respond : List Input :=
  [.setLevelKeys .application ⟨true, 0⟩ ⟨true, 0⟩,
    .processFrame .application .active ⟨10, 1000, 1000, fun _ => 3⟩ (.stream 0 0 [] true),
    .sendStreamData 0 [7, 8, 9] true,
    .buildDatagrams ⟨10, 1000, 1000, fun _ => 3⟩ fun _ _ => true]

/-- The last byte of the response waits for credit. -/
def waiting : SendHistory := respond.foldl SendHistory.after (start shortCredit)

end SendHistory
end SwStack.Quic
