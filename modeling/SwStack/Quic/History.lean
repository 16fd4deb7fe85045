import SwStack.Quic.Coverage
import SwStack.Quic.Written

/-! An endpoint with its history: what the application wrote and was promised, what the
peer acknowledged, and which streams were retired. -/
namespace SwStack.Quic

open SwStack.Lib

namespace Connection

/-- What an accepted `sendStreamData` adds to the written data. -/
def writes (c : Connection) (log : Log) : Input → Log
  | .sendStreamData streamId data fin =>
    if (c.sendStreamData streamId data fin).2 = none then log.append streamId data fin else log
  | _ => log

/-- The reliable size an accepted `resetStreamAt` promises. -/
def promised (c : Connection) : Input → List (Nat × Nat)
  | .resetStreamAt streamId errorCode reliableSize =>
    if (c.resetStreamAt streamId errorCode reliableSize).2 = none then [(streamId, reliableSize)]
    else []
  | _ => []

/-- The streams that meet the retirement test when an input makes it. -/
def retirements (c : Connection) (input : Input) : List Nat :=
  match c.settled input with
  | some settled =>
    (settled.sendStreams.entries.filter fun entry => settled.retires entry.1 entry.2).map Prod.fst
  | none => []

end Connection

structure History where
  connection : Connection
  written : Log
  acked : List Frame
  promises : List (Nat × Nat)
  retired : List Nat

namespace History

def start (setup : Setup) : History :=
  { connection := .start setup, written := fun _ => .empty, acked := [], promises := []
    retired := [] }

def after (h : History) (input : Input) : History :=
  { connection := h.connection.perform input
    written := h.connection.writes h.written input
    acked := h.acked ++ h.connection.ackedFrames input
    promises := h.promises ++ h.connection.promised input
    retired := h.retired ++ h.connection.retirements input }

def step (h : History) (input : Input) : Option History := some (h.after input)

/-- The histories of a connection the driver set up, under a condition on its inputs. -/
abbrev Run (allowed : Connection → Input → Prop) (setup : Setup) : History → Prop :=
  Reaches step (fun h => allowed h.connection) (start setup)

/-- A packet with a frame of a kind was acknowledged. -/
def Acknowledged (h : History) (test : Frame → Prop) : Prop := ∃ frame ∈ h.acked, test frame

end History

namespace Connection

variable {c d : Connection} {rules : Rules} {resets : Bool}

/-- An input keeps the application keys, and moves to a new path only when nothing that
matters is out. -/
def KeepsOwed (resets : Bool) (c : Connection) (input : Input) : Prop :=
  (∀ level, c.drops input = some level → level ≠ .application) ∧
    (c.migrates input = true → Waits resets c.ledger)

def deliveryRules (resets : Bool) (acked : Frame → Prop) (retire : SendStream → Prop) : Rules :=
  { append := fun _ _ _ => True, queue := fun _ => True, acknowledged := acked
    receive := fun _ _ => True, drop := fun _ level => level ≠ .application
    migrate := Waits resets, retire }

theorem KeepsOwed.permits (keeps : KeepsOwed resets c input)
    (retires : ∀ settled, c.settled input = some settled → ∀ streamId stream,
      settled.sendStreams.find? streamId = some stream →
      settled.retires streamId stream = true → retire stream) :
    Permits (deliveryRules resets (· ∈ acked ++ c.ackedFrames input) retire) c input := by
  constructor
  · exact fun _ _ _ _ => trivial
  · exact fun _ _ => trivial
  · exact fun _ _ _ _ => trivial
  · exact fun frame member => List.mem_append_right _ member
  · unfold ReceivePermits
    split <;> intros <;> trivial
  · exact keeps.1
  · exact keeps.2
  · exact retires

/-- All that the delivery of stream data rests on. -/
structure Delivers (resets : Bool) (acked : Frame → Prop) (c : Connection) : Prop where
  retirement : Retirement c
  numbered : Numbered c
  sound : Sound acked c
  covered : Covered resets c

theorem Sound.mono (sound : Sound acked c)
    (implies : ∀ frame, acked frame → more frame) : Sound more c := by
  intro streamId stream found
  have held := sound streamId stream found
  refine ⟨held.apart, held.resetQueued, fun portion settled => ?_, fun answered => ?_⟩
  · obtain ⟨frame, known, carries⟩ := held.settled portion settled
    exact ⟨frame, implies frame known, carries⟩
  · obtain ⟨frame, known, resets⟩ := held.reset answered
    exact ⟨frame, implies frame known, resets⟩

theorem Delivers.changes (keeps : KeepsData resets rules)
    (delivers : Delivers resets rules.acknowledged c) (changes : Changes rules c d) :
    Delivers resets rules.acknowledged d := by
  induction changes with
  | refl => exact delivers
  | tail _ change ih =>
    exact ⟨ih.retirement.change change, ih.numbered.change change, ih.sound.change change,
      ih.covered.change keeps ih.numbered ih.sound ih.retirement change⟩

theorem Delivers.start (setup : Setup) (acked : Frame → Prop) :
    Delivers resets acked (start setup) := by
  refine ⟨.start setup, ?_, ?_, ?_⟩
  · exact fun _ _ found => by cases found
  · exact fun _ _ found => by cases found
  · exact fun _ _ found => by cases found

theorem Delivers.perform (delivers : Delivers resets (· ∈ acked) c) (retire : SendStream → Prop)
    (keeps : KeepsOwed resets c input)
    (retires : ∀ settled, c.settled input = some settled → ∀ streamId stream,
      settled.sendStreams.find? streamId = some stream →
      settled.retires streamId stream = true → retire stream) :
    Delivers resets (· ∈ acked ++ c.ackedFrames input) (c.perform input) := by
  have permits : Permits (deliveryRules resets (· ∈ acked ++ c.ackedFrames input) retire) c input :=
    keeps.permits retires
  have changes := perform_changes delivers.retirement permits
  refine Delivers.changes ⟨fun _ _ => id, fun _ => id⟩ ?_ changes
  exact ⟨delivers.retirement, delivers.numbered,
    delivers.sound.mono fun frame member => List.mem_append_left _ member, delivers.covered⟩

end Connection

namespace History

open Connection

variable {h : History} {resets : Bool}

theorem delivers_of_run (setup : Setup)
    (reached : Run (KeepsOwed resets) setup h) : Delivers resets (· ∈ h.acked) h.connection := by
  induction reached with
  | refl => exact .start setup _
  | next _ keeps stepped ih =>
    cases stepped
    exact ih.perform (fun _ => True) keeps fun _ _ _ _ _ _ => trivial

/-- Everything put in frames for a stream that was not reset is acknowledged, waiting, or in
a packet that can still be acknowledged or declared lost. -/
def ReliableSend (h : History) : Prop :=
  ∀ streamId stream, h.connection.sendStreams.find? streamId = some stream →
    stream.resetQueued = false →
    (∀ position < stream.nextOffset,
      h.Acknowledged (Frame.Carries streamId (.byte position)) ∨
        h.connection.Outstanding (Frame.Carries streamId (.byte position))) ∧
    (stream.finSent = true → h.Acknowledged (Frame.Carries streamId .fin) ∨
      h.connection.Outstanding (Frame.Carries streamId .fin))

/-- Sending is reliable in every run that keeps the application keys and migrates only when
nothing unacknowledged is out. -/
theorem reliableSend_of_run (setup : Setup) (reached : Run (KeepsOwed false) setup h) :
    h.ReliableSend := by
  have delivers := delivers_of_run setup reached
  intro streamId stream found fresh
  have sound := delivers.sound streamId stream found
  have covered := delivers.covered streamId stream found
  refine ⟨fun position below => ?_, fun sent => ?_⟩
  · refine (covered (.byte position) ?_).imp (sound.settled _) id
    simpa [SendStream.Owes, fresh] using below
  · exact (covered .fin ⟨fresh, sent⟩).imp (sound.settled _) id

/-- Three bytes and the end of a stream in a packet that is out. -/
def sentOnce : History :=
  ((((start (.default .client)).after (.setLevelKeys .application ⟨true, 0⟩ ⟨true, 0⟩)).after
    (.sendStreamData 0 [7, 8, 9] true)).after
      (.buildDatagrams ⟨10, 5, 1000, fun _ => 3⟩ fun _ _ => true))

/-- The peer acknowledges them. -/
def ackedOnce : History :=
  sentOnce.after (.processFrame .application .active ⟨20, 5, 1000, fun _ => 3⟩ (.ack 0 0 0 [] none))

/-- A new path finds nothing that is still owed. -/
theorem reliableSend_ackedOnce : (ackedOnce.after .commitPathMigration).ReliableSend := by
  refine reliableSend_of_run (.default .client) ?_
  have quiet : ∀ {c : Connection} {input : Input}, c.drops input = none →
      c.migrates input = false → KeepsOwed false c input := by
    intro c input drops migrates
    simp [KeepsOwed, drops, migrates]
  have settled : KeepsOwed false ackedOnce.connection .commitPathMigration := by
    refine ⟨fun level drops => (by cases drops), fun _ streamId stream found portion owes => ?_⟩
    have streams : ackedOnce.connection.sendStreams.entries =
        [(0, { SendStream.empty with
          nextOffset := 3, finQueued := true, finSent := true, finAcked := true,
          contiguousAckedOffset := 3 })] := by decide +kernel
    have entry : (streamId, stream) ∈ ackedOnce.connection.sendStreams.entries :=
      SortedMap.find?_eq_some_iff.mp found
    rw [streams, List.mem_singleton] at entry
    cases entry
    cases portion with
    | byte position => exact .inl (.inl owes)
    | fin => exact .inl rfl
  exact .next (.next (.next (.next (.next .refl (quiet rfl rfl) rfl) (quiet rfl rfl) rfl)
    (quiet rfl rfl) rfl) (quiet rfl rfl) rfl) settled rfl

/-- A new path strands them. -/
theorem reliableSend_stranded : ¬ ∀ setup h,
    Run (fun c input => c.drops input ≠ some .application) setup h → h.ReliableSend := by
  intro claim
  have reached : Run (fun c input => c.drops input ≠ some .application) (.default .client)
      (sentOnce.after .commitPathMigration) :=
    .next (.next (.next (.next .refl (by decide) rfl) (by decide) rfl) (by decide) rfl)
      (by decide) rfl
  have opened : (sentOnce.after .commitPathMigration).connection.sendStreams.find? 0 =
      some { SendStream.empty with nextOffset := 3, finQueued := true, finSent := true } := by
    decide +kernel
  rcases (claim _ _ reached 0 _ opened rfl).1 0 (by decide) with ⟨frame, member, -⟩ |
    ⟨frame, member, -⟩ | ⟨packetNumber, record, -, tracked, -⟩
  · have acked : (sentOnce.after .commitPathMigration).acked = [] := by decide +kernel
    rw [acked] at member
    cases member
  · have pending : (sentOnce.after .commitPathMigration).connection.app.pendingFrames = [] := by
      decide +kernel
    rw [pending] at member
    cases member
  · cases tracked

end History
end SwStack.Quic
