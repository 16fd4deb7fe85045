import SwStack.Quic.PacketAttempts

/-! The budget of a path that is not validated. Whole datagrams are received and built here, and
a run counts what goes out and comes in since the peer's address changed. -/
namespace SwStack.Quic

open SwStack.Lib

/-- A received UDP datagram: the packets it holds, and the message when what follows them cannot
be read. -/
structure Arrival where
  packets : List Packet
  malformed : Option String

def totalSize (packets : List Packet) : Nat := (packets.map Packet.size).sum

namespace Connection

/-- Only packets that keys have opened count for the path. -/
def authenticates (c : Connection) (mode : ReceiveMode) (nowMs : Nat) (packet : Packet) : Bool :=
  match c.admitPacket mode nowMs packet with
  | .accepted _ => packet.keys.isSome
  | _ => false

/-- The packets of a datagram up to one that is refused, with the bytes authenticated. -/
def receivePackets (mode : ReceiveMode) (clock : Clock) :
    List Packet → Connection → Nat → Connection × Nat × Option String
  | [], c, bytes => (c, bytes, none)
  | packet :: rest, c, bytes =>
    let bytes := if c.authenticates mode clock.nowMs packet then bytes + packet.size else bytes
    match c.receivePacket mode clock packet with
    | (c, none) => receivePackets mode clock rest c bytes
    | (c, some message) => (c, bytes, some message)

/-- Also returns how many of the bytes were authenticated: none once the datagram is refused,
or when it is only inspected. -/
def receiveDatagram (c : Connection) (mode : ReceiveMode) (clock : Clock) (arrival : Arrival) :
    Connection × Nat × Option String :=
  if c.state = .closed then (c, 0, some "Cannot receive QUIC packet on a closed connection")
  else match receivePackets mode clock arrival.packets c 0, arrival.malformed with
  | (c, _, some message), _ => (c, 0, some message)
  | (c, _, none), some message => (c, 0, some message)
  | (c, bytes, none), none =>
    (if 0 < bytes ∧ mode ≠ .inspectPath then c.creditDatagram bytes clock.nowMs else c, bytes, none)

variable {c d : Connection} {level : Level} {nowMs : Nat} {seals : Nat → Nat → Bool}

/-- Nothing is spent of the budget or added to it, unless the path has been validated. -/
structure PathKept (before after : Connection) : Prop where
  state : after.state = before.state ∨ after.state ≠ .opened
  closeSent : after.driver.closing.sent = before.driver.closing.sent
  validated : after.driver.path.validated = false → before.driver.path.validated = false
  received : after.driver.path.validated = false →
    after.driver.path.bytesReceived = before.driver.path.bytesReceived
  sent : after.driver.path.validated = false →
    after.driver.path.bytesSent = before.driver.path.bytesSent

theorem PathKept.of_path (state : d.state = c.state ∨ d.state ≠ .opened)
    (closeSent : d.driver.closing.sent = c.driver.closing.sent)
    (path : d.driver.path = c.driver.path) : PathKept c d := by
  refine ⟨state, closeSent, ?_, ?_, ?_⟩
  all_goals rw [path]
  · exact id
  · exact fun _ => rfl
  · exact fun _ => rfl

theorem PathKept.refl (c : Connection) : PathKept c c := .of_path (.inl rfl) rfl rfl

theorem PathKept.trans (left : PathKept first second)
    (right : PathKept second third) : PathKept first third where
  state := by
    rcases right.state with same | ended
    · rw [same]
      exact left.state
    · exact .inr ended
  closeSent := right.closeSent.trans left.closeSent
  validated := fun pending => left.validated (right.validated pending)
  received := fun pending =>
    (right.received pending).trans (left.received (right.validated pending))
  sent := fun pending => (right.sent pending).trans (left.sent (right.validated pending))

theorem SameOutlet.pathKept (same : SameOutlet c d) : PathKept c d :=
  .of_path (.inl (congrArg Outlet.state same.outlet)) (congrArg Outlet.closeSent same.outlet)
    (congrArg Outlet.path same.outlet)

theorem PathKept.of_validated (state : d.state = c.state)
    (closeSent : d.driver.closing.sent = c.driver.closing.sent)
    (validated : d.driver.path.validated = true) : PathKept c d where
  state := .inl state
  closeSent := closeSent
  validated := fun pending => absurd (validated.symm.trans pending) Bool.noConfusion
  received := fun pending => absurd (validated.symm.trans pending) Bool.noConfusion
  sent := fun pending => absurd (validated.symm.trans pending) Bool.noConfusion

theorem PathKept.processFrame (c : Connection) (level : Level) (mode : ReceiveMode) (clock : Clock)
    (frame : Frame) : PathKept c (c.processFrame level mode clock frame).1 := by
  by_cases other : settlesOutlet frame = false
  · exact (SameOutlet.processFrame c level mode clock other).pathKept
  cases frame with
  | connectionClose => exact .of_path (.inr State.noConfusion) rfl rfl
  | pathResponse data =>
    change PathKept c
      (if mode = .active then (c.processPathResponse data, none) else (c, none)).1
    unfold processPathResponse
    split
    · split
      · split
        · exact .of_validated rfl rfl rfl
        · exact .of_validated rfl rfl rfl
      · exact .refl c
    · exact .refl c
  | _ => exact absurd rfl other

theorem PathKept.receivePacket (c : Connection) (mode : ReceiveMode) (clock : Clock)
    (packet : Packet) : PathKept c (c.receivePacket mode clock packet).1 := by
  have framed (frames : List Frame) (c : Connection) :
      PathKept c (processFrames packet.level mode clock frames c).1 := by
    induction frames generalizing c with
    | nil => exact .refl c
    | cons frame rest ih =>
      have first := PathKept.processFrame c packet.level mode clock frame
      rw [processFrames]
      rcases made : c.processFrame packet.level mode clock frame with ⟨d, _ | message⟩
      · rw [made] at first
        exact first.trans (ih d)
      · rw [made] at first
        exact first
  have admitted := (Leaves.admitPacket (by decide) c mode clock.nowMs packet).sameOutlet.pathKept
  unfold Connection.receivePacket
  cases made : c.admitPacket mode clock.nowMs packet with
  | discarded d => rw [made] at admitted; exact admitted
  | refused d message => rw [made] at admitted; exact admitted
  | accepted d => rw [made] at admitted; exact admitted.trans (framed _ d)

theorem PathKept.receivePackets (mode : ReceiveMode) (clock : Clock) (packets : List Packet)
    (c : Connection) (bytes : Nat) : PathKept c (receivePackets mode clock packets c bytes).1 := by
  induction packets generalizing c bytes with
  | nil => exact .refl c
  | cons packet rest ih =>
    have first := PathKept.receivePacket c mode clock packet
    rw [Connection.receivePackets]
    rcases made : c.receivePacket mode clock packet with ⟨d, _ | message⟩
    · rw [made] at first
      exact first.trans (ih d _)
    · rw [made] at first
      exact first

/-- The path is credited with no more than the bytes authenticated. -/
theorem receiveDatagram_path (c : Connection) (mode : ReceiveMode) (clock : Clock)
    (arrival : Arrival) : ∃ mid, PathKept c mid ∧
      (PathKept mid (c.receiveDatagram mode clock arrival).1 ∨
        (c.receiveDatagram mode clock arrival).1 =
          mid.creditDatagram (c.receiveDatagram mode clock arrival).2.1 clock.nowMs) := by
  unfold receiveDatagram
  split
  · exact ⟨c, .refl c, .inl (.refl c)⟩
  · have received := PathKept.receivePackets mode clock arrival.packets c 0
    rcases made : Connection.receivePackets mode clock arrival.packets c 0 with
      ⟨d, bytes, _ | message⟩
    · rw [made] at received
      refine ⟨d, received, ?_⟩
      cases arrival.malformed with
      | some message => exact .inl (.refl d)
      | none =>
        dsimp only
        split
        · exact .inr rfl
        · exact .inl (.refl d)
    · rw [made] at received
      exact ⟨d, received, .inl (.refl d)⟩

theorem encodePacket_within
    (sent : c.encodePacket level frames ackEliciting nowMs seals maxWireBytes trackGlobalLoss =
      .sent d packet) (pending : c.driver.path.validated = false) :
    c.driver.path.bytesSent + packet.size ≤ 3 * c.driver.path.bytesReceived := by
  unfold encodePacket sealPacket at sent
  repeat' split at sent
  all_goals first | contradiction | skip
  all_goals
    rename_i open_ _
    cases sent
    rw [Bool.or_eq_true, not_or] at open_
    have allowed := open_.1
    unfold amplificationBlocked at allowed
    rw [pending, Bool.not_false, Bool.true_and, decide_eq_true_iff, Nat.not_lt] at allowed
    exact allowed

/-- What building packets takes of the budget. -/
structure Spends (before after : Connection) (packets : List Packet) : Prop where
  state : after.state = before.state
  closeSent : after.driver.closing.sent = before.driver.closing.sent
  validated : after.driver.path.validated = before.driver.path.validated
  received : after.driver.path.bytesReceived = before.driver.path.bytesReceived
  sent : after.driver.path.bytesSent = before.driver.path.bytesSent + totalSize packets
  within : before.driver.path.validated = false → packets ≠ [] →
    before.driver.path.bytesSent + totalSize packets ≤ 3 * before.driver.path.bytesReceived

theorem Spends.keep (spends : Spends before c packets)
    (state : d.state = c.state) (closeSent : d.driver.closing.sent = c.driver.closing.sent)
    (path : d.driver.path = c.driver.path) : Spends before d packets :=
  ⟨state.trans spends.state, closeSent.trans spends.closeSent, path ▸ spends.validated,
    path ▸ spends.received, path ▸ spends.sent, spends.within⟩

theorem restored_path (level : Level) (frames : List Frame) (c : Connection) :
    (frames.foldr (restorePendingFrame level) c).state = c.state ∧
      (frames.foldr (restorePendingFrame level) c).driver.closing = c.driver.closing ∧
      (frames.foldr (restorePendingFrame level) c).driver.path = c.driver.path := by
  induction frames with
  | nil => exact ⟨rfl, rfl, rfl⟩
  | cons frame rest ih =>
    rw [List.foldr_cons]
    unfold restorePendingFrame
    split
    · exact ih
    · exact ih

theorem failed_path (made : c.assemblePacket level nowMs seals generated = .failed d message) :
    d.state = c.state ∧ d.driver.closing = c.driver.closing ∧ d.driver.path = c.driver.path := by
  unfold assemblePacket sendPacking at made
  repeat' split at made
  all_goals first | contradiction | cases made
  · exact ⟨rfl, rfl, rfl⟩
  · have restored := restored_path level
      ((c.packing level generated).frames.drop generated.toList.length)
      (c.takeQueued level ((c.packing level generated).frames.length - generated.toList.length)
        (c.packing level generated).probesPending)
    rw [takeQueued_eq] at restored ⊢
    exact restored

theorem Spends.buildRule (before : Connection) (nowMs : Nat) (seals : Nat → Nat → Bool) :
    BuildRule nowMs seals (Spends before) where
  staged := fun c packets level spends => by
    have same := (Leaves.stageLevel (by decide) c level).sameOutlet.outlet
    exact spends.keep (congrArg Outlet.state same) (congrArg Outlet.closeSent same)
      (congrArg Outlet.path same)
  failed := fun c d packets level generated message spends made => by
    obtain ⟨state, closing, path⟩ := failed_path made
    exact spends.keep state (congrArg Closing.sent closing) path
  finished := fun c d packets level generated spends made => by
    obtain ⟨count, probesPending, _, rfl⟩ := assemblePacket_finished made
    exact spends.keep rfl rfl rfl
  sent := fun c d packets level generated packet spends made => by
    obtain ⟨count, probesPending, next, _, _, encoded, rfl⟩ := assemblePacket_sent made
    have within := encodePacket_within encoded
    rw [takeQueued_eq] at encoded within
    change c.driver.path.validated = false → c.driver.path.bytesSent + packet.size ≤
      3 * c.driver.path.bytesReceived at within
    have unchanged : next.state = c.state ∧ next.driver.closing = c.driver.closing ∧
        next.driver.path = c.driver.path := by
      obtain ⟨_, rfl⟩ := encodePacket_sent encoded
      split <;> exact ⟨rfl, rfl, rfl⟩
    obtain ⟨state, closing, path⟩ := unchanged
    have total : totalSize (packets ++ [packet]) = totalSize packets + packet.size := by
      simp [totalSize]
    have committed : (next.commitPacket level generated packet.size).state = next.state ∧
        (next.commitPacket level generated packet.size).driver.closing = next.driver.closing ∧
        (next.commitPacket level generated packet.size).driver.path =
          { next.driver.path with bytesSent := next.driver.path.bytesSent + packet.size } := by
      unfold commitPacket
      dsimp only
      split <;> exact ⟨rfl, rfl, rfl⟩
    obtain ⟨sentState, sentClosing, sentPath⟩ := committed
    constructor
    · rw [sentState, state, spends.state]
    · rw [sentClosing, closing, spends.closeSent]
    · rw [sentPath, path, spends.validated]
    · rw [sentPath, path, spends.received]
    · rw [sentPath, path, total, ← Nat.add_assoc, ← spends.sent]
    · intro pending _
      have := within (spends.validated.trans pending)
      rw [spends.sent, spends.received] at this
      rw [total]
      omega

/-- What a call of `buildDatagrams` takes of the budget. Only a close datagram is not charged,
and it is the last one. -/
structure Charges (before after : Connection) (packets : List Packet) : Prop where
  state : after.state = before.state
  closeSent : before.driver.closing.sent = true → after.driver.closing.sent = true
  stillOpen : before.state = .opened → after.driver.closing.sent = before.driver.closing.sent
  validated : after.driver.path.validated = before.driver.path.validated
  received : after.driver.path.bytesReceived = before.driver.path.bytesReceived
  sent : after.driver.closing.sent = false →
    after.driver.path.bytesSent = before.driver.path.bytesSent + totalSize packets
  within : before.driver.path.validated = false → packets ≠ [] →
    before.driver.path.bytesSent + totalSize packets ≤ 3 * before.driver.path.bytesReceived
  closed : before.driver.closing.sent = true → before.state ≠ .opened → packets = []

theorem Charges.refl (c : Connection) : Charges c c [] :=
  ⟨rfl, id, fun _ => rfl, rfl, rfl, fun _ => rfl, fun _ moved => absurd rfl moved, fun _ _ => rfl⟩

theorem Charges.close (c : Connection) (ended : c.state ≠ .opened) (clock : Clock)
    (seals : Nat → Nat → Bool) :
    Charges c (c.buildCloseDatagram clock seals).1 (c.buildCloseDatagram clock seals).2.1 := by
  unfold buildCloseDatagram
  split
  · exact .refl c
  rename_i waiting
  have unsent : c.driver.closing.sent = false := by
    cases sent : c.driver.closing.sent with
    | false => rfl
    | true => exact absurd (by rw [sent, Bool.or_true]) waiting
  dsimp only
  split
  · exact .refl c
  · split
    · exact .refl c
    · exact ⟨rfl, fun _ => rfl, fun still => absurd still ended, rfl, rfl,
        fun sent => absurd sent.symm Bool.false_ne_true,
        fun _ moved => absurd rfl moved, fun _ _ => rfl⟩
    · rename_i next packet encoded
      have kept := (Leaves.encodePacket encoded (.inr rfl)).sameOutlet.outlet
      refine ⟨congrArg Outlet.state kept, fun _ => rfl, fun still => absurd still ended,
        congrArg (fun outlet => outlet.path.validated) kept,
        congrArg (fun outlet => outlet.path.bytesReceived) kept,
        fun sent => absurd sent.symm Bool.false_ne_true,
        fun pending _ => ?_, fun sent _ => absurd (unsent.symm.trans sent) Bool.false_ne_true⟩
      exact encodePacket_within encoded pending

theorem Charges.buildDatagrams (c : Connection) (clock : Clock) (seals : Nat → Nat → Bool) :
    Charges c (c.buildDatagrams clock seals).1 (c.buildDatagrams clock seals).2.1 := by
  have idle : Charges c { c with driver.pacing := refillPacing c.driver.pacing clock.nowMs } [] :=
    ⟨rfl, id, fun _ => rfl, rfl, rfl, fun _ => rfl, fun _ moved => absurd rfl moved,
      fun _ _ => rfl⟩
  unfold Connection.buildDatagrams
  dsimp only
  split
  · exact idle
  · exact idle
  · rename_i closing
    have ended : c.state ≠ .opened := by
      rw [closing]
      exact State.noConfusion
    obtain ⟨state, closeSent, stillOpen, validated, received, sent, within, closed⟩ :=
      Charges.close { c with driver.pacing := refillPacing c.driver.pacing clock.nowMs } ended clock
        seals
    exact ⟨state, closeSent, stillOpen, validated, received, sent, within, closed⟩
  · rename_i opened
    have start : Spends c { c with
        driver.pacing := refillPacing c.driver.pacing clock.nowMs } [] :=
      ⟨rfl, rfl, rfl, rfl, rfl, fun _ moved => absurd rfl moved⟩
    have built := (Spends.buildRule c clock.nowMs seals).buildLevels
      [.initial, .handshake, .application] start
    exact ⟨built.state, fun sent => built.closeSent.trans sent, fun _ => built.closeSent,
      built.validated, built.received, fun _ => built.sent, built.within,
      fun _ ended => absurd opened ended⟩

end Connection
end SwStack.Quic

/-! Runs in which the peer's address changes. Until the new path is validated, the datagrams
built for it never exceed three times what was received on it. -/
namespace SwStack.Quic

open SwStack.Lib

inductive PathCall where
  | receive (mode : ReceiveMode) (clock : Clock) (arrival : Arrival)
  | call (input : Input)

/-- The other inputs are parts of receiving a datagram. -/
def Input.isCall : Input → Bool
  | .admitPacket .. | .processFrame .. | .creditDatagram .. => false
  | _ => true

/-- A connection with the bytes built and the bytes authenticated since the peer's address last
changed. `pending` says that it changed and the path is still to be validated. -/
structure PathRun where
  connection : Connection
  sent : Nat
  received : Nat
  pending : Bool

namespace PathRun

def start (setup : Setup) : PathRun :=
  { connection := .start setup, sent := 0, received := 0, pending := false }

/-- The run in another state of the connection. A path that becomes validated ends the count. -/
def move (run : PathRun) (after : Connection) (sent received : Nat) : PathRun :=
  { connection := after, sent := run.sent + sent, received := run.received + received
    pending := run.pending &&
      !(!run.connection.driver.path.validated && after.driver.path.validated) }

/-- `counts` says in which states a change of address is one. The datagram that shows the new
address is the first received on it. -/
def step (counts : Connection → Bool) (run : PathRun) : PathCall → Option PathRun
  | .receive mode clock arrival =>
    let result := run.connection.receiveDatagram mode clock arrival
    some (run.move result.1 0 result.2.1)
  | .call input =>
    if !input.isCall then none
    else match input with
    | .onPeerAddressChanged receivedBytes challenge =>
      let after := run.connection.onPeerAddressChanged receivedBytes challenge
      if counts run.connection then
        some { connection := after, sent := 0, received := receivedBytes, pending := true }
      else some (run.move after 0 0)
    | .buildDatagrams clock seals =>
      let result := run.connection.buildDatagrams clock seals
      some (run.move result.1 (totalSize result.2.1) 0)
    | input => some (run.move (run.connection.perform input) 0 0)

/-- The connection acts on a change of address while it is open. -/
def whileOpen (c : Connection) : Bool := c.state = .opened

/-- What is built is charged to the path, but for a close datagram, which is the last one. -/
structure WithinBudget (run : PathRun) : Prop where
  closed : run.connection.driver.closing.sent = true → run.connection.state ≠ .opened
  unvalidated : run.pending = true → run.connection.driver.path.validated = false
  credited : run.pending = true → run.connection.driver.path.bytesReceived ≤ run.received
  bounded : run.pending = true → run.sent ≤ 3 * run.received
  charged : run.pending = true → run.connection.driver.closing.sent = false →
    run.sent ≤ run.connection.driver.path.bytesSent

variable {run : PathRun} {c d : Connection}

theorem move_pending {sent received : Nat} (within : run.WithinBudget)
    (pending : (run.move d sent received).pending = true) :
    run.pending = true ∧ d.driver.path.validated = false := by
  obtain ⟨before, still⟩ := (Bool.and_eq_true _ _).mp pending
  rw [within.unvalidated before, Bool.not_false, Bool.true_and, Bool.not_eq_true'] at still
  exact ⟨before, still⟩

theorem WithinBudget.keep (within : run.WithinBudget) (kept : Connection.PathKept run.connection d)
    (received : Nat) : (run.move d 0 received).WithinBudget where
  closed := fun closeSent => by
    change d.driver.closing.sent = true at closeSent
    change d.state ≠ .opened
    rcases kept.state with same | ended
    · rw [same]
      exact within.closed (kept.closeSent.symm.trans closeSent)
    · exact ended
  unvalidated := fun pending => (move_pending within pending).2
  credited := fun pending => by
    obtain ⟨before, unvalidated⟩ := move_pending within pending
    have := within.credited before
    change d.driver.path.bytesReceived ≤ run.received + received
    rw [kept.received unvalidated]
    omega
  bounded := fun pending => by
    have := within.bounded (move_pending within pending).1
    change run.sent + 0 ≤ 3 * (run.received + received)
    omega
  charged := fun pending closeSent => by
    obtain ⟨before, unvalidated⟩ := move_pending within pending
    change run.sent + 0 ≤ d.driver.path.bytesSent
    rw [kept.sent unvalidated]
    exact within.charged before (kept.closeSent.symm.trans closeSent)

theorem WithinBudget.receive (within : run.WithinBudget) (mode : ReceiveMode) (clock : Clock)
    (arrival : Arrival) :
    (run.move (run.connection.receiveDatagram mode clock arrival).1 0
      (run.connection.receiveDatagram mode clock arrival).2.1).WithinBudget := by
  obtain ⟨mid, kept, rest | credited⟩ :=
    Connection.receiveDatagram_path run.connection mode clock arrival
  · exact within.keep (kept.trans rest) _
  · generalize (run.connection.receiveDatagram mode clock arrival).2.1 = bytes at credited ⊢
    rw [credited]
    have before := within.keep kept bytes
    constructor
    · exact before.closed
    · exact before.unvalidated
    · intro pending
      have unvalidated : mid.driver.path.validated = false := before.unvalidated pending
      have := within.credited (move_pending within pending).1
      change (if mid.driver.path.validated then mid.driver.path.bytesReceived
        else mid.driver.path.bytesReceived + bytes) ≤ run.received + bytes
      rw [unvalidated, if_neg Bool.false_ne_true, kept.received unvalidated]
      omega
    · exact before.bounded
    · exact before.charged

theorem WithinBudget.build (within : run.WithinBudget)
    (charges : Connection.Charges run.connection d packets) :
    (run.move d (totalSize packets) 0).WithinBudget where
  closed := fun closeSent => by
    change d.driver.closing.sent = true at closeSent
    change d.state ≠ .opened
    rw [charges.state]
    intro opened
    exact within.closed ((charges.stillOpen opened).symm.trans closeSent) opened
  unvalidated := fun pending => (move_pending within pending).2
  credited := fun pending => by
    have := within.credited (move_pending within pending).1
    change d.driver.path.bytesReceived ≤ run.received + 0
    rw [charges.received]
    exact this
  bounded := fun pending => by
    have before := (move_pending within pending).1
    have bounded := within.bounded before
    have credited := within.credited before
    change run.sent + totalSize packets ≤ 3 * (run.received + 0)
    by_cases nothing : packets = []
    · rw [nothing]
      exact bounded
    · have unsent : run.connection.driver.closing.sent = false := by
        by_contra closeSent
        rw [Bool.not_eq_false] at closeSent
        exact nothing (charges.closed closeSent (within.closed closeSent))
      have charged := within.charged before unsent
      have := charges.within (within.unvalidated before) nothing
      omega
  charged := fun pending unsent => by
    change d.driver.closing.sent = false at unsent
    have earlier : run.connection.driver.closing.sent = false := by
      by_contra closeSent
      rw [Bool.not_eq_false] at closeSent
      exact Bool.false_ne_true (unsent.symm.trans (charges.closeSent closeSent))
    have := within.charged (move_pending within pending).1 earlier
    change run.sent + totalSize packets ≤ d.driver.path.bytesSent
    rw [charges.sent unsent]
    omega

theorem WithinBudget.change (within : run.WithinBudget)
    (opened : run.connection.state = .opened) (receivedBytes : Nat) (challenge : Bytes) :
    WithinBudget {
      connection := run.connection.onPeerAddressChanged receivedBytes challenge
      sent := 0, received := receivedBytes, pending := true } := by
  have unclosed : ¬ run.connection.driver.closing.sent = true := fun closeSent =>
    within.closed closeSent opened
  unfold Connection.onPeerAddressChanged
  rw [if_neg (not_not.mpr opened)]
  exact ⟨fun closeSent => absurd closeSent unclosed, fun _ => rfl, fun _ => le_rfl,
    fun _ => Nat.zero_le _, fun _ _ => le_rfl⟩

/-- The calls that neither build datagrams nor change the address. -/
theorem pathKept_perform (c : Connection) (isCall : input.isCall = true)
    (quiet : ∀ clock seals, input ≠ .buildDatagrams clock seals)
    (stays : ∀ bytes challenge, input ≠ .onPeerAddressChanged bytes challenge) :
    Connection.PathKept c (c.perform input) := by
  by_cases other : Connection.changesOutlet input = false
  · exact (Connection.SameOutlet.perform c other).pathKept
  cases input with
  | queueDatagramFrame data =>
    unfold Connection.perform Connection.queueDatagramFrame
    dsimp only
    repeat' split
    all_goals exact .of_path (.inl rfl) rfl rfl
  | queueFrame level frame =>
    unfold Connection.perform Connection.queueFrame Connection.queueDatagramFrame
    dsimp only
    repeat' split
    all_goals exact .of_path (.inl rfl) rfl rfl
  | close =>
    unfold Connection.perform Connection.close
    dsimp only
    split
    · exact .refl c
    · exact .of_path (.inr State.noConfusion) rfl rfl
  | buildDatagrams clock seals => exact absurd rfl (quiet clock seals)
  | onTimeout clock =>
    unfold Connection.perform Connection.onTimeout
    dsimp only
    split
    · exact .of_path (.inr State.noConfusion) rfl rfl
    split
    · exact .of_path (.inr State.noConfusion) rfl rfl
    · exact ((Connection.Leaves.firePto clock _ _).trans
        ((Connection.Leaves.firePto clock _ _).trans
          (Connection.Leaves.firePto clock _ _))).sameOutlet.pathKept
  | dropLevelKeys level =>
    unfold Connection.perform Connection.dropLevelKeys
    dsimp only
    split <;> exact .of_path (.inl rfl) rfl rfl
  | commitPathMigration => exact .of_validated rfl rfl rfl
  | beginPathValidation => exact ⟨.inl rfl, rfl, id, fun _ => rfl, fun _ => rfl⟩
  | cancelPathValidation => exact ⟨.inl rfl, rfl, id, fun _ => rfl, fun _ => rfl⟩
  | onPeerAddressChanged bytes challenge => exact absurd rfl (stays bytes challenge)
  | statelessReset => exact .of_path (.inr State.noConfusion) rfl rfl
  | creditDatagram => cases isCall
  | processFrame => cases isCall
  | _ => exact absurd rfl other

theorem WithinBudget.step (within : run.WithinBudget)
    (stepped : run.step whileOpen call = some after) : after.WithinBudget := by
  cases call with
  | receive mode clock arrival =>
    cases stepped
    exact within.receive mode clock arrival
  | call input =>
    unfold PathRun.step at stepped
    dsimp only at stepped
    split at stepped
    · cases stepped
    rename_i isCall
    rw [Bool.not_eq_true, Bool.not_eq_false'] at isCall
    split at stepped
    · rename_i receivedBytes challenge
      split at stepped
      · rename_i opened
        cases stepped
        exact within.change (of_decide_eq_true opened) receivedBytes challenge
      · rename_i ended
        cases stepped
        have unchanged : run.connection.onPeerAddressChanged receivedBytes challenge =
            run.connection := if_pos (fun opened => ended (decide_eq_true opened))
        rw [unchanged]
        exact within.keep (.refl _) 0
    · cases stepped
      exact within.build (Connection.Charges.buildDatagrams _ _ _)
    · rename_i changes builds
      cases stepped
      exact within.keep (pathKept_perform _ isCall builds changes) 0

theorem WithinBudget.start (setup : Setup) : (start setup).WithinBudget :=
  ⟨fun closeSent => absurd closeSent Bool.false_ne_true,
    fun pending => absurd pending Bool.false_ne_true,
    fun pending => absurd pending Bool.false_ne_true,
    fun pending => absurd pending Bool.false_ne_true,
    fun pending => absurd pending Bool.false_ne_true⟩

/-- Between a change of address and the validation of the new path, no run sends more than three
times what it has received there. -/
theorem sent_le_three_received {setup : Setup}
    (reached : Reaches (step whileOpen) (fun _ _ => True) (start setup) run)
    (pending : run.pending = true) : run.sent ≤ 3 * run.received :=
  (reached.invariant (WithinBudget.start setup) fun within _ stepped =>
    within.step stepped).bounded pending

theorem called
    (reached : Reaches (step counts) (fun _ _ => True) (start setup) run) (call : PathCall)
    (stepped : run.step counts call = some after) :
    Reaches (step counts) (fun _ _ => True) (start setup) after := .next reached trivial stepped

/-- A client with keys to whose peer a new address belongs. -/
def relocated (receivedBytes : Nat) : PathRun :=
  { connection := ((Connection.start (.default .client)).perform
      (.setLevelKeys .application ⟨true, 0⟩ ⟨true, 0⟩)).onPeerAddressChanged receivedBytes
        [1, 2, 3, 4, 5, 6, 7, 8]
    sent := 0, received := receivedBytes, pending := true }

/-- The run once it has built its datagrams. -/
def answered (run : PathRun) : PathRun :=
  let built := run.connection.buildDatagrams ⟨10, 5, 1000, fun _ => 3⟩ fun _ _ => true
  run.move built.1 (totalSize built.2.1) 0

theorem sent_le_three_received_relocated : 0 < (relocated 1200).answered.sent ∧
    (relocated 1200).answered.sent ≤ 3 * (relocated 1200).answered.received := by
  have keyed : Reaches (step whileOpen) (fun _ _ => True) (start (.default .client)) _ :=
    called .refl (.call (.setLevelKeys .application ⟨true, 0⟩ ⟨true, 0⟩)) rfl
  have changed : Reaches (step whileOpen) (fun _ _ => True) (start (.default .client))
      (relocated 1200) :=
    called keyed (.call (.onPeerAddressChanged 1200 [1, 2, 3, 4, 5, 6, 7, 8])) rfl
  have reached : Reaches (step whileOpen) (fun _ _ => True) (start (.default .client))
      (relocated 1200).answered :=
    called changed (.call (.buildDatagrams ⟨10, 5, 1000, fun _ => 3⟩ fun _ _ => true)) rfl
  exact ⟨by decide +kernel, sent_le_three_received reached (by decide +kernel)⟩

theorem onPeerAddressChanged_of_not_opened (c : Connection) (receivedBytes : Nat)
    (challenge : Bytes) (ended : c.state ≠ .opened) :
    c.onPeerAddressChanged receivedBytes challenge = c := if_pos ended

/-- A client that is closing when its peer's address changes: the call changes nothing. -/
def relocatedClosing : PathRun :=
  { connection := (((Connection.start (.default .client)).perform
      (.setLevelKeys .application ⟨true, 0⟩ ⟨true, 0⟩)).close 0 (List.replicate 100 0)
        true).onPeerAddressChanged 30 [1, 2, 3, 4, 5, 6, 7, 8]
    sent := 0, received := 30, pending := true }

/-- Were every call a change of address, the close datagram would exceed the budget. -/
theorem sent_exceeds_when_closing : ¬ ∀ setup run,
    Reaches (step fun _ => true) (fun _ _ => True) (start setup) run → run.pending = true →
      run.sent ≤ 3 * run.received := by
  intro claim
  have keyed : Reaches (step fun _ => true) (fun _ _ => True) (start (.default .client)) _ :=
    called .refl (.call (.setLevelKeys .application ⟨true, 0⟩ ⟨true, 0⟩)) rfl
  have closing : Reaches (step fun _ => true) (fun _ _ => True) (start (.default .client)) _ :=
    called keyed (.call (.close 0 (List.replicate 100 0) true)) rfl
  have changed : Reaches (step fun _ => true) (fun _ _ => True) (start (.default .client))
      relocatedClosing :=
    called closing (.call (.onPeerAddressChanged 30 [1, 2, 3, 4, 5, 6, 7, 8])) rfl
  have reached : Reaches (step fun _ => true) (fun _ _ => True) (start (.default .client))
      relocatedClosing.answered :=
    called changed (.call (.buildDatagrams ⟨10, 5, 1000, fun _ => 3⟩ fun _ _ => true)) rfl
  have exceeded : ¬ relocatedClosing.answered.sent ≤ 3 * relocatedClosing.answered.received := by
    decide +kernel
  exact exceeded (claim _ _ reached (by decide +kernel))

end PathRun
end SwStack.Quic
