import SwStack.Quic.ConnectionIdPool

/-! Arrivals of NEW_CONNECTION_ID frames in any order and any number. The pool is in order as
long as no frame arrives whose id an earlier frame has already retired. -/
namespace SwStack.Quic

open SwStack.Lib List

/-- A connection with the sequence numbers that have been in its pool and the largest
`retirePriorTo` it has seen. -/
structure PoolRun where
  connection : Connection
  pooled : List Nat
  largestRetired : Nat

namespace PoolRun

def start (setup : Setup) : PoolRun :=
  { connection := .start setup, pooled := (Connection.start setup).pool.keys, largestRetired := 0 }

def step (run : PoolRun) (frame : NewConnectionId) : PoolRun :=
  let after := run.connection.receiveNewConnectionId frame
  { connection := after
    pooled := run.pooled ++ after.pool.keys
    largestRetired := max run.largestRetired frame.retirePriorTo }

/-- No retired id is in the pool or in use, each id that has left the pool is retired once, the
id in use is in the pool, and the pool is within its limit. -/
structure Sound (run : PoolRun) : Prop where
  retired : ∀ sequenceNumber, run.connection.pool.contains sequenceNumber = true →
    run.largestRetired ≤ sequenceNumber
  current : run.largestRetired ≤ run.connection.driver.connectionIds.currentPeerSequence
  queued : ∀ sequenceNumber, run.connection.queuedRetirements sequenceNumber =
    if sequenceNumber ∈ run.pooled ∧ sequenceNumber < run.largestRetired then 1 else 0
  inUse : run.connection.pool.find? run.connection.driver.connectionIds.currentPeerSequence =
    some run.connection.driver.connectionIds.peerConnectionId
  bounded : run.connection.pool.entries.length ≤ run.connection.poolLimit

/-- The frame's id has not been retired before, or the pool is full and refuses it. -/
def Timely (run : PoolRun) (frame : NewConnectionId) : Prop :=
  run.largestRetired ≤ frame.sequenceNumber ∨ run.connection.poolFull

end PoolRun

/-- What a conforming peer has issued: one id and one token for each sequence number, the ids
distinct and of one to twenty bytes. -/
structure Conforming (setup : Setup) (ids tokens : Nat → Bytes) (frames : List NewConnectionId) :
    Prop where
  started : setup.peerConnectionId ≠ []
  initial : ids 0 = setup.peerConnectionId
  issued : ∀ frame ∈ frames, frame.connectionId = ids frame.sequenceNumber ∧
    frame.token = tokens frame.sequenceNumber ∧ frame.retirePriorTo ≤ frame.sequenceNumber
  sized : ∀ frame ∈ frames, frame.connectionId ≠ [] ∧ frame.connectionId.length ≤ 20
  distinct : ∀ frame ∈ frames, ∀ sequenceNumber, sequenceNumber = 0 ∨
    (∃ other ∈ frames, other.sequenceNumber = sequenceNumber) →
    ids sequenceNumber = frame.connectionId → sequenceNumber = frame.sequenceNumber

namespace PoolRun

/-- What the pool holds is what the peer has issued, and it holds all that is not retired. -/
structure Issued (ids tokens : Nat → Bytes) (run : PoolRun) : Prop where
  ids : ∀ sequenceNumber connectionId,
    run.connection.pool.find? sequenceNumber = some connectionId → connectionId = ids sequenceNumber
  tokens : ∀ sequenceNumber token,
    run.connection.poolTokens.find? sequenceNumber = some token → token = tokens sequenceNumber
  pooled : ∀ sequenceNumber, run.connection.pool.contains sequenceNumber = true →
    sequenceNumber ∈ run.pooled
  kept : ∀ sequenceNumber ∈ run.pooled, run.largestRetired ≤ sequenceNumber →
    run.connection.pool.contains sequenceNumber = true

variable {ids tokens : Nat → Bytes} {run : PoolRun} {frame : NewConnectionId}

theorem Issued.agrees (issued : run.Issued ids tokens)
    (own : frame.connectionId = ids frame.sequenceNumber ∧
      frame.token = tokens frame.sequenceNumber ∧ frame.retirePriorTo ≤ frame.sequenceNumber)
    (sized : frame.connectionId ≠ [] ∧ frame.connectionId.length ≤ 20) :
    run.connection.Agrees frame where
  nonempty := sized.1
  short := sized.2
  ordered := own.2.2
  id := fun connectionId found => (issued.ids _ connectionId found).trans own.1.symm
  token := fun token found => (issued.tokens _ token found).trans own.2.1.symm

theorem mem_step_pooled (run : PoolRun) (frame : NewConnectionId) (sequenceNumber : Nat) :
    sequenceNumber ∈ (run.step frame).pooled ↔ sequenceNumber ∈ run.pooled ∨
      (run.connection.receiveNewConnectionId frame).pool.contains sequenceNumber = true :=
  mem_append.trans (or_congr_right SortedMap.mem_keys)

theorem contains_of_takes {before after : Connection} (takes : before.Takes frame after)
    (sequenceNumber : Nat) : after.pool.contains sequenceNumber = true ↔
      sequenceNumber = frame.sequenceNumber ∨
        (frame.retirePriorTo ≤ sequenceNumber ∧ before.pool.contains sequenceNumber = true) := by
  rw [SortedMap.contains, takes.pool]
  by_cases same : sequenceNumber = frame.sequenceNumber
  · simp [same]
  · by_cases below : sequenceNumber < frame.retirePriorTo
    · simp [same, below]
    · simp [same, below, Nat.not_lt.mp below, SortedMap.contains]

/-- A frame that comes in time keeps the pool in order. -/
theorem Sound.taken (sound : run.Sound) (issued : run.Issued ids tokens)
    (agrees : run.connection.Agrees frame) (own : frame.connectionId = ids frame.sequenceNumber)
    (ownToken : frame.token = tokens frame.sequenceNumber)
    (inTime : run.largestRetired ≤ frame.sequenceNumber)
    (takes : run.connection.Takes frame (run.connection.receiveNewConnectionId frame)) :
    (run.step frame).Sound ∧ (run.step frame).Issued ids tokens := by
  have contains := contains_of_takes takes
  have ordered := agrees.ordered
  have largest : (run.step frame).largestRetired =
      max run.largestRetired frame.retirePriorTo := rfl
  have pooled : ∀ sequenceNumber, sequenceNumber ∈ (run.step frame).pooled ↔
      sequenceNumber ∈ run.pooled ∨ sequenceNumber = frame.sequenceNumber := by
    intro sequenceNumber
    rw [mem_step_pooled, contains]
    constructor
    · rintro (old | same | ⟨_, held⟩)
      · exact .inl old
      · exact .inr same
      · exact .inl (issued.pooled sequenceNumber held)
    · rintro (old | same)
      · exact .inl old
      · exact .inr (.inl same)
  constructor
  · constructor
    · intro sequenceNumber held
      rw [largest]
      rcases (contains sequenceNumber).mp held with same | ⟨above, old⟩
      · omega
      · have := sound.retired sequenceNumber old
        omega
    · change (run.step frame).largestRetired ≤
        (run.connection.receiveNewConnectionId frame).driver.connectionIds.currentPeerSequence
      have := sound.current
      rw [largest, takes.current, Connection.adoptedSequence]
      split
      · omega
      · omega
    · intro sequenceNumber
      refine (takes.retirements sequenceNumber).trans ?_
      rw [sound.queued, largest]
      by_cases same : sequenceNumber = frame.sequenceNumber
      · rw [if_neg (by omega), if_neg (by omega), if_neg (by omega)]
      · have still : sequenceNumber ∈ (run.step frame).pooled ↔ sequenceNumber ∈ run.pooled := by
          rw [pooled, or_iff_left same]
        simp only [still]
        by_cases before : sequenceNumber ∈ run.pooled
        · by_cases early : sequenceNumber < run.largestRetired
          · have gone : ¬ run.connection.pool.contains sequenceNumber = true := fun held =>
              absurd early (Nat.not_lt.mpr (sound.retired sequenceNumber held))
            rw [if_pos ⟨before, early⟩, if_neg (fun held => gone held.1),
              if_pos ⟨before, lt_max_of_lt_left early⟩]
          · have held := issued.kept sequenceNumber before (Nat.not_lt.mp early)
            rw [if_neg (fun both => early both.2)]
            by_cases now : sequenceNumber < frame.retirePriorTo
            · rw [if_pos ⟨held, now⟩, if_pos ⟨before, lt_max_of_lt_right now⟩]
            · rw [if_neg (fun both => now both.2), if_neg]
              rintro ⟨_, below⟩
              omega
        · have absent : ¬ run.connection.pool.contains sequenceNumber = true := fun held =>
            before (issued.pooled sequenceNumber held)
          rw [if_neg (fun both => before both.1), if_neg (fun both => absent both.1),
            if_neg (fun both => before both.1)]
    · change (run.connection.receiveNewConnectionId frame).pool.find?
        (run.connection.receiveNewConnectionId frame).driver.connectionIds.currentPeerSequence =
          some (run.connection.receiveNewConnectionId frame).driver.connectionIds.peerConnectionId
      rw [takes.current, takes.inUse, takes.pool, Connection.adoptedSequence, Connection.adoptedId]
      split
      · rename_i remains
        split
        · rename_i same
          have inUse := issued.ids _ _ sound.inUse
          rw [own, inUse, same]
        · rw [if_neg (Nat.not_lt.mpr remains)]
          exact sound.inUse
      · rw [if_pos rfl]
    · change (run.connection.receiveNewConnectionId frame).pool.entries.length ≤
        (run.connection.receiveNewConnectionId frame).poolLimit
      rw [takes.limit]
      rcases takes.size with within | fewer
      · exact within
      · exact fewer.trans sound.bounded
  · constructor
    · intro sequenceNumber connectionId found
      change (run.connection.receiveNewConnectionId frame).pool.find? _ = _ at found
      rw [takes.pool] at found
      split at found
      · rename_i same
        rw [same, ← own]
        exact (Option.some.inj found).symm
      · split at found
        · cases found
        · exact issued.ids _ _ found
    · intro sequenceNumber token found
      rcases takes.tokens sequenceNumber token found with ⟨same, here⟩ | old
      · rw [here, same, ownToken]
      · exact issued.tokens _ _ old
    · intro sequenceNumber held
      exact (mem_step_pooled run frame sequenceNumber).mpr (.inr held)
    · intro sequenceNumber member above
      rw [largest] at above
      refine (contains sequenceNumber).mpr ?_
      rcases (pooled sequenceNumber).mp member with old | same
      · exact .inr ⟨by omega, issued.kept sequenceNumber old (by omega)⟩
      · exact .inl same

theorem Sound.refused (sound : run.Sound) (issued : run.Issued ids tokens)
    (full : (run.connection.retirePeerConnectionIds frame.retirePriorTo).poolFull)
    (same : run.connection.receiveNewConnectionId frame =
      run.connection.retirePeerConnectionIds frame.retirePriorTo) :
    (run.step frame).Sound ∧ (run.step frame).Issued ids tokens := by
  have above := Connection.above_of_poolFull sound.bounded full
  have pool : (run.step frame).connection.pool = run.connection.pool := by
    change (run.connection.receiveNewConnectionId frame).pool = _
    rw [same]
    exact Connection.pool_retire_of_above above
  have connectionIds :
      (run.step frame).connection.driver.connectionIds.currentPeerSequence =
          run.connection.driver.connectionIds.currentPeerSequence ∧
        (run.step frame).connection.driver.connectionIds.peerConnectionId =
          run.connection.driver.connectionIds.peerConnectionId := by
    change (run.connection.receiveNewConnectionId frame).driver.connectionIds.currentPeerSequence =
        _ ∧ (run.connection.receiveNewConnectionId frame).driver.connectionIds.peerConnectionId = _
    rw [same]
    exact ⟨rfl, rfl⟩
  have pooled : ∀ sequenceNumber, sequenceNumber ∈ (run.step frame).pooled ↔
      sequenceNumber ∈ run.pooled := by
    intro sequenceNumber
    rw [mem_step_pooled]
    change _ ∨ (run.step frame).connection.pool.contains sequenceNumber = true ↔ _
    rw [pool]
    exact or_iff_left_of_imp (issued.pooled sequenceNumber)
  have largest : (run.step frame).largestRetired =
      max run.largestRetired frame.retirePriorTo := rfl
  have current := above run.connection.driver.connectionIds.currentPeerSequence
    (by rw [SortedMap.contains, sound.inUse]; rfl)
  constructor
  · constructor
    · rw [pool]
      intro sequenceNumber held
      have := sound.retired sequenceNumber held
      have := above sequenceNumber held
      omega
    · have := sound.current
      rw [connectionIds.1, largest]
      omega
    · intro sequenceNumber
      change (run.connection.receiveNewConnectionId frame).queuedRetirements sequenceNumber = _
      rw [same, Connection.queuedRetirements_retire, sound.queued, largest]
      simp only [pooled]
      have nothing : ¬ (run.connection.pool.contains sequenceNumber = true ∧
          sequenceNumber < frame.retirePriorTo) := fun both =>
        absurd both.2 (Nat.not_lt.mpr (above sequenceNumber both.1))
      rw [if_neg nothing]
      by_cases before : sequenceNumber ∈ run.pooled
      · by_cases early : sequenceNumber < run.largestRetired
        · rw [if_pos ⟨before, early⟩, if_pos ⟨before, lt_max_of_lt_left early⟩]
        · have held := issued.kept sequenceNumber before (Nat.not_lt.mp early)
          have := above sequenceNumber held
          rw [if_neg (fun both => early both.2), if_neg]
          rintro ⟨_, below⟩
          omega
      · rw [if_neg (fun both => before both.1), if_neg (fun both => before both.1)]
    · rw [pool, connectionIds.1, connectionIds.2]
      exact sound.inUse
    · rw [pool]
      change _ ≤ (run.connection.receiveNewConnectionId frame).poolLimit
      rw [same]
      exact sound.bounded
  · constructor
    · rw [pool]
      exact issued.ids
    · intro sequenceNumber token found
      change (run.connection.receiveNewConnectionId frame).poolTokens.find? _ = _ at found
      rw [same] at found
      exact issued.tokens _ _ (Connection.poolTokens_retire found)
    · intro sequenceNumber held
      exact (mem_step_pooled run frame sequenceNumber).mpr (.inr held)
    · intro sequenceNumber member wide
      rw [pool]
      exact issued.kept sequenceNumber ((pooled sequenceNumber).mp member)
        ((le_max_left _ _).trans (largest ▸ wide))

/-- One frame keeps the pool in order exactly when it is timely. -/
theorem Sound.step_iff (sound : run.Sound) (issued : run.Issued ids tokens)
    (own : frame.connectionId = ids frame.sequenceNumber ∧
      frame.token = tokens frame.sequenceNumber ∧ frame.retirePriorTo ≤ frame.sequenceNumber)
    (sized : frame.connectionId ≠ [] ∧ frame.connectionId.length ≤ 20) :
    (run.Timely frame → (run.step frame).Issued ids tokens) ∧
      ((run.step frame).Sound ↔ run.Timely frame) := by
  have agrees := issued.agrees own sized
  by_cases inTime : run.largestRetired ≤ frame.sequenceNumber
  · have kept : (run.step frame).Sound ∧ (run.step frame).Issued ids tokens := by
      rcases Connection.receiveNewConnectionId_cases agrees with ⟨_, takes⟩ | ⟨_, full, same⟩
      · exact sound.taken issued agrees own.1 own.2.1 inTime takes
      · exact sound.refused issued full same
    exact ⟨fun _ => kept.2, iff_of_true kept.1 (.inl inTime)⟩
  · -- the frame's own retirement reaches nothing that is left in the pool
    have above : ∀ sequenceNumber, run.connection.pool.contains sequenceNumber = true →
        frame.retirePriorTo ≤ sequenceNumber := by
      intro sequenceNumber held
      have := sound.retired sequenceNumber held
      have := own.2.2
      omega
    have pool := Connection.pool_retire_of_above above
    have absent : ¬ run.connection.pool.contains frame.sequenceNumber = true := fun held =>
      inTime (sound.retired _ held)
    have full : (run.connection.retirePeerConnectionIds frame.retirePriorTo).poolFull ↔
        run.connection.poolFull := by
      unfold Connection.poolFull
      rw [pool]
      exact Iff.rfl
    have timely : run.Timely frame ↔ run.connection.poolFull := or_iff_right inTime
    rcases Connection.receiveNewConnectionId_cases agrees with ⟨room, takes⟩ | ⟨_, isFull, same⟩
    · rw [pool, full, or_iff_right absent] at room
      refine ⟨fun passes => absurd (timely.mp passes) room, iff_of_false (fun after => ?_)
        (timely.not.mpr room)⟩
      have held := (contains_of_takes takes frame.sequenceNumber).mpr (.inl rfl)
      exact inTime ((le_max_left _ _).trans (after.retired _ held))
    · have kept := sound.refused issued isFull same
      exact ⟨fun _ => kept.2, iff_of_true kept.1 (timely.mpr (full.mp isFull))⟩

theorem start_sound (nonempty : setup.peerConnectionId ≠ [])
    (limit : 1 ≤ setup.localParams.activeConnectionIdLimit) : (start setup).Sound where
  retired := fun _ _ => Nat.zero_le _
  current := Nat.zero_le _
  queued := by
    intro sequenceNumber
    have absent : ¬ (sequenceNumber ∈ (start setup).pooled ∧
        sequenceNumber < (start setup).largestRetired) := fun both => Nat.not_lt_zero _ both.2
    rw [if_neg absent]
    rfl
  inUse := by
    change (if setup.peerConnectionId.isEmpty then ∅
      else SortedMap.insert ∅ 0 setup.peerConnectionId).find? 0 = some setup.peerConnectionId
    rw [if_neg (fun empty => nonempty (List.isEmpty_iff.mp empty)), SortedMap.find?_insert_self]
  bounded := by
    change (if setup.peerConnectionId.isEmpty then ∅
      else SortedMap.insert ∅ 0 setup.peerConnectionId).entries.length ≤ _
    rw [if_neg (fun empty => nonempty (List.isEmpty_iff.mp empty))]
    exact limit

theorem start_issued
    (nonempty : setup.peerConnectionId ≠ []) (initial : ids 0 = setup.peerConnectionId) :
    (start setup).Issued ids tokens where
  ids := by
    intro sequenceNumber connectionId found
    change (if setup.peerConnectionId.isEmpty then ∅
      else SortedMap.insert ∅ 0 setup.peerConnectionId).find? sequenceNumber = _ at found
    rw [if_neg (fun empty => nonempty (List.isEmpty_iff.mp empty)),
      SortedMap.find?_insert] at found
    split at found
    · rename_i same
      rw [same, initial]
      exact (Option.some.inj found).symm
    · cases found
  tokens := by
    intro sequenceNumber token found
    cases found
  pooled := fun _ held => SortedMap.mem_keys.mpr held
  kept := fun _ member _ => SortedMap.mem_keys.mp member

/-- Every frame of the run is timely where it arrives. -/
def AllTimely : PoolRun → List NewConnectionId → Prop
  | _, [] => True
  | run, frame :: rest => run.Timely frame ∧ AllTimely (run.step frame) rest

/-- The pool is in order at the start and after each frame. -/
def AllSound : PoolRun → List NewConnectionId → Prop
  | run, [] => run.Sound
  | run, frame :: rest => run.Sound ∧ AllSound (run.step frame) rest

theorem allSound_iff (sound : run.Sound) (issued : run.Issued ids tokens)
    (own : ∀ frame ∈ frames, frame.connectionId = ids frame.sequenceNumber ∧
      frame.token = tokens frame.sequenceNumber ∧ frame.retirePriorTo ≤ frame.sequenceNumber)
    (sized : ∀ frame ∈ frames, frame.connectionId ≠ [] ∧ frame.connectionId.length ≤ 20) :
    run.AllSound frames ↔ run.AllTimely frames := by
  induction frames generalizing run with
  | nil => exact iff_of_true sound trivial
  | cons frame rest ih =>
    obtain ⟨keeps, holds⟩ := sound.step_iff issued (own frame mem_cons_self)
      (sized frame mem_cons_self)
    rw [AllSound, AllTimely]
    constructor
    · rintro ⟨_, later⟩
      have next : (run.step frame).Sound := by
        cases rest with
        | nil => exact later
        | cons _ _ => exact later.1
      have timely := holds.mp next
      exact ⟨timely, (ih next (keeps timely)
        (fun other member => own other (mem_cons_of_mem _ member))
        fun other member => sized other (mem_cons_of_mem _ member)).mp later⟩
    · rintro ⟨timely, later⟩
      exact ⟨sound, (ih (holds.mpr timely) (keeps timely)
        (fun other member => own other (mem_cons_of_mem _ member))
        fun other member => sized other (mem_cons_of_mem _ member)).mpr later⟩

end PoolRun

/-- In any run of what a conforming peer has issued, the pool stays in order exactly when
every frame is timely. -/
theorem connectionIdPool_iff {setup : Setup} {ids tokens : Nat → Bytes}
    {frames : List NewConnectionId} (conforming : Conforming setup ids tokens frames)
    (limit : 1 ≤ setup.localParams.activeConnectionIdLimit) :
    (PoolRun.start setup).AllSound frames ↔ (PoolRun.start setup).AllTimely frames :=
  PoolRun.allSound_iff (PoolRun.start_sound conforming.started limit)
    (PoolRun.start_issued conforming.started conforming.initial) conforming.issued conforming.sized

def issuedIds (sequenceNumber : Nat) : Bytes := [2 + UInt8.ofNat sequenceNumber]

def issueFrame (sequenceNumber retirePriorTo : Nat) : NewConnectionId :=
  { sequenceNumber, retirePriorTo, connectionId := issuedIds sequenceNumber
    token := List.replicate 16 0 }

theorem issueFrame_conforming
    (listed : ∀ frame ∈ frames, frame = issueFrame 1 0 ∨ frame = issueFrame 2 2) :
    Conforming (.default .client) issuedIds (fun _ => List.replicate 16 0) frames where
  started := by decide
  initial := rfl
  issued := by
    intro frame member
    rcases listed frame member with rfl | rfl
    · decide
    · decide
  sized := by
    intro frame member
    rcases listed frame member with rfl | rfl
    · decide
    · decide
  distinct := by
    intro frame member sequenceNumber known same
    have small : sequenceNumber ≤ 2 := by
      rcases known with zero | ⟨other, present, own⟩
      · omega
      · rcases listed other present with rfl | rfl
        · exact own ▸ (by decide)
        · exact own ▸ (by decide)
    have cases : sequenceNumber = 0 ∨ sequenceNumber = 1 ∨ sequenceNumber = 2 := by omega
    rcases listed frame member with rfl | rfl <;> rcases cases with rfl | rfl | rfl <;>
      revert same <;> decide

theorem connectionIdPool_iff_inOrder :
    (PoolRun.start (.default .client)).AllSound [issueFrame 1 0, issueFrame 2 2] := by
  refine (connectionIdPool_iff (issueFrame_conforming ?_) (by decide)).mpr ?_
  · simp
  · exact ⟨.inl (by decide), .inl (by decide), trivial⟩

/-- The first frame arrives once more after the second has retired its id. -/
theorem connectionIdPool_late : ¬ ∀ (setup : Setup) (ids tokens : Nat → Bytes)
    (frames : List NewConnectionId), Conforming setup ids tokens frames →
    1 ≤ setup.localParams.activeConnectionIdLimit → (PoolRun.start setup).AllSound frames := by
  intro always
  have late := always (.default .client) issuedIds (fun _ => List.replicate 16 0)
    [issueFrame 1 0, issueFrame 2 2, issueFrame 1 0] (issueFrame_conforming (by simp)) (by decide)
  have last := late.2.2.2
  have held := last.retired 1 (by decide +kernel)
  revert held
  decide

end SwStack.Quic
