import SwStack.Quic.Protection
import SwStack.Quic.Tracking

/-! Packet numbers that arrive. Every number of a packet-number space is taken once, and
the ACK tracker names exactly the numbers taken in its window. -/
namespace SwStack.Quic

open SwStack.Lib List

/-- What tells a replay in a packet-number space. -/
@[ext]
structure Tracking where
  ranges : List LocalAckRange
  largest : Option Nat

def SpaceProtection.tracking (protection : SpaceProtection) : Tracking :=
  { ranges := protection.ranges, largest := protection.largestReceivedPn }

namespace Tracking

/-- The packet numbers a space has taken, and those its level took in earlier spaces too. -/
structure Follows (tracking : Tracking) (received ever : List Nat) : Prop where
  descending : AckTracker.Descending tracking.ranges
  window : ∀ number, AckTracker.Holds tracking.ranges number ↔
    number ∈ received ∧ ∀ other ∈ received, other < number + kMaxTrackedPackets
  once : received.Nodup
  within : ∀ number ∈ received, number ∈ ever
  largest : ∀ number, tracking.largest = some number → number ∈ ever
  highest : ∀ number ∈ ever, ∃ largest, tracking.largest = some largest ∧ number ≤ largest

theorem Follows.empty : Follows { ranges := [], largest := none } [] [] where
  descending := .nil
  window number := ⟨fun held => absurd held (AckTracker.not_holds_nil number), by simp⟩
  once := .nil
  within := by simp
  largest := by simp
  highest := by simp

/-- A discarded space starts over, below the highest number of its level. -/
def discard (tracking : Tracking) : Tracking := { tracking with ranges := [] }

variable {tracking : Tracking}

theorem Follows.discard (follows : tracking.Follows received ever) :
    tracking.discard.Follows [] ever where
  descending := .nil
  window number := ⟨fun held => absurd held (AckTracker.not_holds_nil number), by simp⟩
  once := .nil
  within := by simp
  largest := follows.largest
  highest := follows.highest

/-- What `packetNumberAlreadyConsumed` decides on. -/
def consumed (tracking : Tracking) (number : Nat) : Bool :=
  AckTracker.containsRanges number tracking.ranges ||
    tracking.largest.any fun largest =>
      decide (number ≤ largest) && decide (kMaxTrackedPackets ≤ largest - number)

theorem Follows.consumed_of_received (follows : tracking.Follows received ever)
    (member : number ∈ received) : tracking.consumed number = true := by
  obtain ⟨largest, found, most⟩ := follows.highest number (follows.within number member)
  by_cases recent : ∀ other ∈ received, other < number + kMaxTrackedPackets
  · have held := (follows.window number).mpr ⟨member, recent⟩
    rw [consumed, (AckTracker.containsRanges_iff number follows.descending).mpr held, Bool.true_or]
  · push Not at recent
    obtain ⟨other, taken, far⟩ := recent
    obtain ⟨top, same, above⟩ := follows.highest other (follows.within other taken)
    cases found.symm.trans same
    have old : kMaxTrackedPackets ≤ largest - number := by omega
    simp [consumed, found, most, old]

theorem Follows.fresh (follows : tracking.Follows received ever)
    (unseen : number ∉ received) (recent : ∀ other ∈ ever, other < number + kMaxTrackedPackets) :
    tracking.consumed number = false := by
  have absent : AckTracker.containsRanges number tracking.ranges = false := by
    refine Bool.eq_false_of_not_eq_true fun contained => ?_
    have held := (AckTracker.containsRanges_iff number follows.descending).mp contained
    exact unseen ((follows.window number).mp held).1
  rw [consumed, absent, Bool.false_or]
  cases found : tracking.largest with
  | none => rfl
  | some largest =>
    have near := recent largest (follows.largest largest found)
    have positive : 0 < kMaxTrackedPackets := by decide
    have young : ¬ kMaxTrackedPackets ≤ largest - number := by omega
    simp [young]

theorem Follows.top (follows : tracking.Follows received ever) (member : number ∈ received) :
    ∃ top, AckTracker.Holds tracking.ranges top ∧ ∀ other ∈ received, other ≤ top := by
  obtain ⟨top, largest⟩ := Option.isSome_iff_exists.mp (isSome_max?_of_mem member)
  obtain ⟨taken, most⟩ := max?_eq_some_iff.mp largest
  refine ⟨top, (follows.window top).mpr ⟨taken, fun other present => ?_⟩, most⟩
  have below := most other present
  have positive : 0 < kMaxTrackedPackets := by decide
  omega

/-- A space that takes a packet number. -/
def take (tracking : Tracking) (number : Nat) : Tracking :=
  { ranges := ((AckTracker.insertNumber number none tracking.ranges).map
      AckTracker.trimWindow).getD tracking.ranges
    largest := some (tracking.largest.elim number (max number)) }

theorem Follows.take {tracking : Tracking} (follows : tracking.Follows received ever)
    (unseen : number ∉ received) :
    (tracking.take number).Follows (number :: received) (number :: ever) := by
  have inserted := @AckTracker.insertNumber_spec number none tracking.ranges follows.descending
    (by simp)
  cases found : AckTracker.insertNumber number none tracking.ranges with
  | none =>
    rw [found] at inserted
    exact absurd ((follows.window number).mp inserted).1 unseen
  | some ranges =>
    rw [found] at inserted
    obtain ⟨descending, holds⟩ := inserted
    obtain ⟨trimmed, window⟩ := AckTracker.trimWindow_spec descending
    have ranges_take : (tracking.take number).ranges = AckTracker.trimWindow ranges := by
      simp [Tracking.take, found]
    constructor
    · rw [ranges_take]
      exact trimmed
    · intro other
      rw [ranges_take, window, holds]
      constructor
      · rintro ⟨held, recent⟩
        have member : other ∈ number :: received := by
          rcases held with held | rfl
          · exact mem_cons_of_mem _ ((follows.window other).mp held).1
          · exact mem_cons_self
        refine ⟨member, fun taken present => ?_⟩
        rcases mem_cons.mp present with rfl | present
        · exact recent taken ((holds taken).mpr (.inr rfl))
        · obtain ⟨top, held, most⟩ := follows.top present
          have near := recent top ((holds top).mpr (.inl held))
          have below := most taken present
          omega
      · rintro ⟨member, recent⟩
        constructor
        · rcases mem_cons.mp member with rfl | member
          · exact .inr rfl
          · refine .inl ((follows.window other).mpr ⟨member, fun taken present => ?_⟩)
            exact recent taken (mem_cons_of_mem _ present)
        · intro taken held
          rcases (holds taken).mp held with held | rfl
          · exact recent taken (mem_cons_of_mem _ ((follows.window taken).mp held).1)
          · exact recent taken mem_cons_self
    · exact nodup_cons.mpr ⟨unseen, follows.once⟩
    · intro other member
      rcases mem_cons.mp member with rfl | member
      · exact mem_cons_self
      · exact mem_cons_of_mem _ (follows.within other member)
    · intro other same
      cases before : tracking.largest with
      | none =>
        simp only [Tracking.take, before, Option.elim_none, Option.some.injEq] at same
        rw [← same]
        exact mem_cons_self
      | some largest =>
        simp only [Tracking.take, before, Option.elim_some, Option.some.injEq] at same
        rcases max_choice number largest with most | most
        · rw [← same, most]
          exact mem_cons_self
        · rw [← same, most]
          exact mem_cons_of_mem _ (follows.largest largest before)
    · intro other member
      refine ⟨_, rfl, ?_⟩
      rcases mem_cons.mp member with rfl | member
      · cases tracking.largest with
        | none => exact le_rfl
        | some largest => exact le_max_left _ _
      · obtain ⟨largest, before, most⟩ := follows.highest other member
        rw [before]
        exact most.trans (le_max_right _ _)

end Tracking

namespace Connection

variable {c : Connection} {level : Level}

def tracking (c : Connection) (level : Level) : Tracking := (c.protection.spaces level).tracking

theorem tracking_of_protection {d : Connection} (same : d.protection = c.protection)
    (level : Level) : d.tracking level = c.tracking level :=
  congrArg (fun protection : Protection => (protection.spaces level).tracking) same

theorem tracking_advanceKeyPhase (c : Connection) (level : Level) :
    c.advanceKeyPhase.1.tracking level = c.tracking level := by
  unfold advanceKeyPhase
  split
  · rfl
  · split
    · cases level <;> rfl
    · rfl

theorem tracking_initiateKeyUpdate (c : Connection) (level : Level) :
    c.initiateKeyUpdate.1.tracking level = c.tracking level := by
  unfold initiateKeyUpdate
  repeat' split
  all_goals first | rfl | exact tracking_advanceKeyPhase c level

theorem tracking_setLevelKeys (c : Connection) (level other : Level) (rxKeys txKeys : TrafficKeys) :
    (c.setLevelKeys level rxKeys txKeys).tracking other = c.tracking other := by
  have installed : (c.installKeys level rxKeys txKeys).tracking other = c.tracking other := by
    unfold tracking protection installKeys
    dsimp only
    rw [setSpace_spaces]
    split
    · rename_i same
      rw [same]
      rfl
    · rfl
  unfold setLevelKeys
  split
  · exact installed
  · exact installed

/-- The level whose packet-number space an input discards. -/
def discards (c : Connection) : Input → Option Level
  | .dropLevelKeys level => some level
  | .processFrame _ _ _ .handshakeDone => if c.setup.role = .client then some .handshake else none
  | _ => none

theorem tracking_dropLevelKeys (c : Connection) (level other : Level) :
    (c.dropLevelKeys level).tracking other =
      if other = level then (c.tracking level).discard else c.tracking other := by
  have cleared : (c.clearSpace level).tracking other =
      if other = level then (c.tracking level).discard else c.tracking other := by
    unfold tracking protection clearSpace
    dsimp only
    rw [setSpace_spaces]
    split <;> rfl
  unfold dropLevelKeys
  split
  · exact cleared
  · exact cleared

theorem tracking_processFrame (c : Connection) (level other : Level) (mode : ReceiveMode)
    (clock : Clock) (frame : Frame)
    (keeps : c.discards (.processFrame level mode clock frame) = none) :
    (c.processFrame level mode clock frame).1.tracking other = c.tracking other := by
  cases frame with
  | ack largest delay first ranges ecn =>
    obtain ⟨acked, same, -⟩ := protection_processAckFrame c level clock largest first ranges
    change (c.processAckFrame level clock largest first ranges).1.tracking other = _
    rw [tracking, same]
    rfl
  | handshakeDone =>
    rw [discards] at keeps
    split at keeps
    · contradiction
    · rename_i server
      rw [processFrame, if_neg server]
  | _ =>
    refine tracking_of_protection (Leaves.processFrame c level mode clock ?_).sameProtection other
    simp [touchedByFrame]

/-- Only an admitted packet and a discarded space change what tells replays. -/
theorem tracking_perform (c : Connection) (input : Input) (level : Level)
    (silent : ∀ mode nowMs packet, input ≠ .admitPacket mode nowMs packet) :
    (c.perform input).tracking level =
      if c.discards input = some level then (c.tracking level).discard
      else c.tracking level := by
  have kept {d : Connection} (same : d.protection = c.protection) :
      d.tracking level = c.tracking level := tracking_of_protection same level
  cases input with
  | admitPacket mode nowMs packet => exact absurd rfl (silent mode nowMs packet)
  | processFrame arrived mode clock frame =>
    cases gone : c.discards (.processFrame arrived mode clock frame) with
    | none => exact tracking_processFrame c arrived level mode clock frame gone
    | some dropped =>
      rw [discards.eq_def] at gone
      split at gone
      · contradiction
      · rename_i same
        cases same
        split at gone
        · rename_i client
          cases gone
          unfold perform processFrame
          dsimp only
          rw [if_pos client, tracking_dropLevelKeys]
          by_cases here : level = .handshake
          · rw [if_pos here, if_pos (by rw [here]), here]
            rfl
          · rw [if_neg here, if_neg fun same => here (Option.some.inj same).symm]
            rfl
        · contradiction
      · contradiction
  | dropLevelKeys dropped =>
    change (c.dropLevelKeys dropped).tracking level = if some dropped = some level then _ else _
    rw [tracking_dropLevelKeys]
    by_cases here : level = dropped
    · rw [if_pos here, if_pos (congrArg some here.symm), here]
    · rw [if_neg here, if_neg fun same => here (Option.some.inj same).symm]
  | setLevelKeys installed rxKeys txKeys => exact tracking_setLevelKeys c installed level rxKeys txKeys
  | initiateKeyUpdate => exact tracking_initiateKeyUpdate c level
  | setHandshakeConfirmed => rfl
  | _ =>
    refine kept (Leaves.perform c ?_).sameProtection
    simp [touchedBy]

theorem tracking_acceptPacket (c : Connection) (level other : Level) (packetNumber : Nat)
    (ackEliciting : Bool) (nowMs : Nat) :
    (c.acceptPacket level packetNumber ackEliciting nowMs).tracking other =
      if other = level then (c.tracking level).take packetNumber else c.tracking other := by
  unfold tracking protection acceptPacket
  dsimp only
  rw [setSpace_spaces]
  split
  · rename_i here
    refine Tracking.ext ?_ ?_
    · change ((c.spaces level).ackTracker.recordReceivedPacket packetNumber ackEliciting).ranges =
        ((AckTracker.insertNumber packetNumber none (c.spaces level).ackTracker.ranges).map
          AckTracker.trimWindow).getD (c.spaces level).ackTracker.ranges
      unfold AckTracker.recordReceivedPacket
      cases AckTracker.insertNumber packetNumber none (c.spaces level).ackTracker.ranges <;> rfl
    · change (if _ = true then some packetNumber else (c.spaces level).largestReceivedPn) =
        some ((c.spaces level).largestReceivedPn.elim packetNumber (max packetNumber))
      cases (c.spaces level).largestReceivedPn with
      | none => rfl
      | some largest =>
        by_cases higher : largest < packetNumber
        · simp [higher, higher.le]
        · simp [higher, not_lt.mp higher]
  · rfl

theorem packetNumberAlreadyConsumed_eq (c : Connection) (level : Level) (packetNumber : Nat) :
    c.packetNumberAlreadyConsumed level packetNumber = (c.tracking level).consumed packetNumber := by
  unfold packetNumberAlreadyConsumed Tracking.consumed
  congr 1
  change _ = (c.spaces level).largestReceivedPn.any _
  cases (c.spaces level).largestReceivedPn <;> rfl

/-- What an admission makes of the level's packet numbers. -/
def Admission.Tracks (c : Connection) (packet : Packet) : Admission → Prop
  | .accepted d => c.packetNumberAlreadyConsumed packet.level packet.packetNumber = false ∧
    ∀ level, d.tracking level =
      if level = packet.level then (c.tracking level).take packet.packetNumber
      else c.tracking level
  | .discarded d | .refused d _ => ∀ level, d.tracking level = c.tracking level

theorem admitDecoded_tracks {d : Connection} (same : ∀ level, d.tracking level = c.tracking level)
    (unseen : c.packetNumberAlreadyConsumed packet.level packet.packetNumber = false)
    (mode : ReceiveMode) (nowMs : Nat) : (d.admitDecoded mode nowMs packet).Tracks c packet := by
  unfold admitDecoded
  split
  · exact same
  · refine ⟨unseen, fun level => ?_⟩
    rw [tracking_acceptPacket]
    split
    · rename_i here
      rw [here, same]
    · exact same level

theorem admitShortHeader_tracks (application : packet.level = .application) (mode : ReceiveMode)
    (nowMs : Nat) : (c.admitShortHeader mode nowMs packet).Tracks c packet := by
  unfold admitShortHeader
  split
  · exact fun _ => rfl
  cases c.openShortHeader packet with
  | none => exact fun _ => rfl
  | some opened =>
    dsimp only
    cases seen : c.packetNumberAlreadyConsumed .application packet.packetNumber with
    | true => exact fun _ => rfl
    | false =>
      rw [← application] at seen
      rw [if_neg (by simp)]
      by_cases next : opened = .next
      · rw [if_pos next]
        have same := tracking_advanceKeyPhase c
        rcases advanced : c.advanceKeyPhase with ⟨d, _ | message⟩
        · rw [advanced] at same
          exact admitDecoded_tracks same seen mode nowMs
        · rw [advanced] at same
          exact same
      · rw [if_neg next]
        exact admitDecoded_tracks (fun _ => rfl) seen mode nowMs

theorem admitLongHeader_tracks (authenticated : packet.keys.isSome = true) (mode : ReceiveMode)
    (nowMs : Nat) : (c.admitLongHeader mode nowMs packet).Tracks c packet := by
  unfold admitLongHeader
  split
  · split
    · exact fun _ => rfl
    · split
      · exact fun _ => rfl
      · rename_i seen
        exact admitDecoded_tracks (fun _ => rfl) (Bool.eq_false_of_not_eq_true seen) mode nowMs
  · rw [if_neg fun plain => by
      simp [Option.isNone_iff_eq_none.mp plain.2] at authenticated]
    exact fun _ => rfl

theorem admitPacket_tracks (authenticated : packet.keys.isSome = true) (mode : ReceiveMode)
    (nowMs : Nat) : (c.admitPacket mode nowMs packet).Tracks c packet := by
  unfold admitPacket
  split
  · rename_i application
    exact admitShortHeader_tracks application mode nowMs
  · exact admitLongHeader_tracks authenticated mode nowMs

/-- A packet whose number was taken is dropped, whatever opens it. -/
theorem admitPacket_replayed (authenticated : packet.keys.isSome = true)
    (replayed : c.packetNumberAlreadyConsumed packet.level packet.packetNumber = true)
    (mode : ReceiveMode) (nowMs : Nat) : c.admitPacket mode nowMs packet = .discarded c := by
  unfold admitPacket
  split
  · rename_i application
    rw [application] at replayed
    unfold admitShortHeader
    split
    · rfl
    cases c.openShortHeader packet with
    | none => rfl
    | some opened => rfl
  · unfold admitLongHeader
    split
    · split
      · rfl
      · rfl
    · rw [if_neg fun plain => by
      simp [Option.isNone_iff_eq_none.mp plain.2] at authenticated]

end Connection

/-- An authenticated packet is protected by some keys. -/
def Input.Authenticated : Input → Prop
  | .admitPacket _ _ packet => packet.keys.isSome = true
  | _ => True

/-- An endpoint with the packet numbers whose frames it processed: those of each level's
space since it was last discarded, and those of the level since the start. -/
structure Arrivals where
  connection : Connection
  received : Level → List Nat
  ever : Level → List Nat

namespace Arrivals

open Connection

def start (setup : Setup) : Arrivals :=
  { connection := .start setup, received := fun _ => [], ever := fun _ => [] }

/-- The packet number an admission takes. -/
def accepted (c : Connection) (level : Level) : Input → List Nat
  | .admitPacket mode nowMs packet =>
    match c.admitPacket mode nowMs packet with
    | .accepted _ => if level = packet.level then [packet.packetNumber] else []
    | _ => []
  | _ => []

def after (arrivals : Arrivals) (input : Input) : Arrivals :=
  { connection := arrivals.connection.perform input
    received := fun level =>
      if arrivals.connection.discards input = some level then []
      else accepted arrivals.connection level input ++ arrivals.received level
    ever := fun level => accepted arrivals.connection level input ++ arrivals.ever level }

def step (arrivals : Arrivals) (input : Input) : Option Arrivals := some (arrivals.after input)

abbrev Run (allowed : Arrivals → Input → Prop) (setup : Setup) : Arrivals → Prop :=
  Reaches step allowed (start setup)

/-- Every level's tracking follows what its space took. -/
def Tracked (arrivals : Arrivals) : Prop :=
  ∀ level, (arrivals.connection.tracking level).Follows (arrivals.received level)
    (arrivals.ever level)

theorem Tracked.start (setup : Setup) : (start setup).Tracked := fun _ => .empty

theorem Tracked.after {arrivals : Arrivals} (tracked : arrivals.Tracked)
    (authenticated : input.Authenticated) : (arrivals.after input).Tracked := by
  intro level
  unfold Arrivals.after
  dsimp only
  by_cases admits : ∃ mode nowMs packet, input = .admitPacket mode nowMs packet
  · obtain ⟨mode, nowMs, packet, rfl⟩ := admits
    have tracks := admitPacket_tracks (c := arrivals.connection) authenticated mode nowMs
    rw [if_neg (by simp [discards])]
    unfold accepted perform
    cases admitted : arrivals.connection.admitPacket mode nowMs packet with
    | accepted d =>
      rw [admitted] at tracks
      obtain ⟨unseen, tracks⟩ := tracks
      rw [packetNumberAlreadyConsumed_eq] at unseen
      simp only [admitted, Admission.connection, tracks level]
      split
      · rename_i here
        rw [here]
        refine (tracked packet.level).take fun member => ?_
        have seen := (tracked packet.level).consumed_of_received member
        simp [unseen] at seen
      · exact tracked level
    | discarded d =>
      rw [admitted] at tracks
      simp only [admitted, Admission.connection, tracks level]
      exact tracked level
    | refused d message =>
      rw [admitted] at tracks
      simp only [admitted, Admission.connection, tracks level]
      exact tracked level
  · have silent : ∀ mode nowMs packet, input ≠ .admitPacket mode nowMs packet :=
      fun mode nowMs packet same => admits ⟨mode, nowMs, packet, same⟩
    have nothing : accepted arrivals.connection level input = [] := by
      cases input with
      | admitPacket mode nowMs packet => exact absurd rfl (silent mode nowMs packet)
      | _ => rfl
    rw [tracking_perform arrivals.connection input level silent, nothing]
    split
    · exact (tracked level).discard
    · exact tracked level

theorem tracked_of_run {setup : Setup} {arrivals : Arrivals}
    (reached : Run (fun _ input => input.Authenticated) setup arrivals) : arrivals.Tracked :=
  reached.invariant (Tracked.start setup) fun tracked authenticated stepped => by
    cases stepped
    exact tracked.after authenticated

/-- Packets of a level are processed once, fresh ones are no replays, and the ACK tracker
names exactly the numbers of the last 1024. -/
structure Contract (arrivals : Arrivals) (level : Level) : Prop where
  once : (arrivals.received level).Nodup
  replayed : ∀ mode clock packet, packet.level = level → packet.keys.isSome = true →
    packet.packetNumber ∈ arrivals.received level →
    arrivals.connection.receivePacket mode clock packet = (arrivals.connection, none)
  fresh : ∀ number, number ∉ arrivals.received level →
    (∀ other ∈ arrivals.ever level, other < number + kMaxTrackedPackets) →
    arrivals.connection.packetNumberAlreadyConsumed level number = false
  descending : AckTracker.Descending (arrivals.connection.spaces level).ackTracker.ranges
  window : ∀ number,
    AckTracker.Holds (arrivals.connection.spaces level).ackTracker.ranges number ↔
      number ∈ arrivals.received level ∧
        ∀ other ∈ arrivals.received level, other < number + kMaxTrackedPackets
  ordered : ∀ ackDelay, (arrivals.connection.spaces level).ackTracker.buildAckFrame ackDelay ≠
    .error "Invalid QUIC ACK range ordering"
  built : ∀ ackDelay, arrivals.received level ≠ [] →
    (∀ number ∈ arrivals.received level, number ≤ maxVarInt) → ackDelay ≤ maxVarInt →
    ∃ frame, (arrivals.connection.spaces level).ackTracker.buildAckFrame ackDelay = .ok frame
  acknowledged : ∀ ackDelay frame,
    (arrivals.connection.spaces level).ackTracker.buildAckFrame ackDelay = .ok frame →
    ∃ largest firstAckRange wire ranges, frame = .ack largest ackDelay firstAckRange wire none ∧
      acknowledgedRanges largest firstAckRange wire = .ok ranges ∧
      ∀ number, (∃ range ∈ ranges, range.1 ≤ number ∧ number ≤ range.2) ↔
        number ∈ arrivals.received level ∧
          ∀ other ∈ arrivals.received level, other < number + kMaxTrackedPackets

theorem contract_of_run (setup : Setup) (arrivals : Arrivals)
    (reached : Run (fun _ input => input.Authenticated) setup arrivals) (level : Level) :
    arrivals.Contract level := by
  have follows := tracked_of_run reached level
  have descending : AckTracker.Descending (arrivals.connection.spaces level).ackTracker.ranges :=
    follows.descending
  have window := follows.window
  constructor
  · exact follows.once
  · intro mode clock packet here authenticated member
    subst here
    have seen := follows.consumed_of_received member
    rw [← packetNumberAlreadyConsumed_eq] at seen
    rw [receivePacket, admitPacket_replayed authenticated seen]
  · intro number unseen recent
    rw [packetNumberAlreadyConsumed_eq]
    exact follows.fresh unseen recent
  · exact descending
  · exact window
  · exact fun ackDelay => (AckTracker.buildAckFrame_spec descending ackDelay).1
  · intro ackDelay filled fits delay
    refine AckTracker.buildAckFrame_total descending ?_ ?_ delay
    · intro empty
      obtain ⟨number, member⟩ := exists_mem_of_ne_nil _ filled
      obtain ⟨top, held, -⟩ := follows.top member
      change AckTracker.Holds (arrivals.connection.spaces level).ackTracker.ranges top at held
      rw [empty] at held
      exact AckTracker.not_holds_nil top held
    · exact fun number held => fits number ((window number).mp held).1
  · intro ackDelay frame built
    obtain ⟨largest, firstAckRange, wire, ranges, same, decoded, exactly⟩ :=
      (AckTracker.buildAckFrame_spec descending ackDelay).2 frame built
    exact ⟨largest, firstAckRange, wire, ranges, same, decoded,
      fun number => (exactly number).trans (window number)⟩

/-- Packet 5 twice, and packet 3 after it. -/
def repeated : Arrivals :=
  let keys : TrafficKeys := { secret := true, generation := 0 }
  let packet (number : Nat) : Packet :=
    { level := .application, keys := some keys, keyPhase := false, packetNumber := number
      frames := [.ping], size := 30 }
  ((((start (.default .server)).after (.setLevelKeys .application keys keys)).after
    (.admitPacket .active 10 (packet 5))).after (.admitPacket .active 11 (packet 5))).after
    (.admitPacket .active 12 (packet 3))

theorem contract_repeated :
    repeated.received .application = [3, 5] ∧ repeated.Contract .application := by
  have reached : Run (fun _ input => input.Authenticated) (.default .server) repeated := by
    refine .next (.next (.next (.next .refl ?_ rfl) ?_ rfl) ?_ rfl) ?_ rfl
    · exact trivial
    · exact rfl
    · exact rfl
    · exact rfl
  exact ⟨by decide, contract_of_run (.default .server) repeated reached .application⟩

end Arrivals
end SwStack.Quic
